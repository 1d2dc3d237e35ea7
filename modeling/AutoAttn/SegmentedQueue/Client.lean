import AutoAttn.SegmentedQueue.Transfers

/-!
# Clients of the segmented queues

A client sends its requests one at a time (`zkt_segmented_client.c`). Between two of them the owner may execute any
requests of other clients, and any of its own calls may end without a reply. When it reports success, its record was
appended or read as a whole.
-/

namespace SegmentedQueue

open Bytes

/-! ### Clients -/

/-- A client: it returns, or it makes a call and goes on with the reply, or with the error of a call that got none. -/
inductive Client (α : Type) where
  | done (a : α)
  | call (r : Request) (next : Except Result Reply → Client α)

/-- A client runs while the owner executes requests. A call without a reply is pending, or fails in the owner; its
request may be executed all the same. -/
inductive Runs {α : Type} : Client α → List Step → α → Prop
  | done {a : α} {steps : List Step} : Runs (.done a) steps a
  | silent {r : Request} {next : Except Result Reply → Client α} {steps : List Step} {a : α} {e : Result}
      (he : e = .pending ∨ e = .io) (h : Runs (next (.error e)) steps a) : Runs (.call r next) steps a
  | reply {r : Request} {next : Except Result Reply → Client α} {before after : List Step} {step : Step} {a : α}
      (hr : step.request = r) (h : Runs (next (.ok step.reply)) after a) :
      Runs (.call r next) (before ++ step :: after) a

/-- The record that a client appends, and where to. -/
structure Source where
  domain : Domain
  lane : Nat
  policy : Policy
  data : List UInt8

namespace Source

variable (src : Source) (deadline : Nat)

/-- The requests of an append. -/
def request (operation : Operation) (transfer offset : Nat) (bytes : List UInt8) : Request where
  operation := operation
  deadline := deadline
  transfer := transfer
  offset := offset
  total := src.data.length
  lane := src.lane
  policy := src.policy
  domain := src.domain
  bytes := bytes

/-- The chunk that is sent next. -/
def piece (offset : Nat) : List UInt8 := slice src.data offset chunkBytes

lemma length_piece_pos {offset : Nat} (h : offset < src.data.length) : 0 < (src.piece offset).length := by
  rw [piece, length_slice, chunkBytes]
  omega

lemma sub_piece_lt {offset : Nat} (h : offset < src.data.length) :
    src.data.length - (offset + (src.piece offset).length) < src.data.length - offset := by
  have hpos := src.length_piece_pos h
  omega

/-- The loop of `append`, and the commit behind it. -/
def chunks (transfer offset : Nat) : Client Result :=
  if h : offset < src.data.length then
    .call (src.request deadline .appendChunk transfer offset (src.piece offset)) fun
      | .error e => .done e
      | .ok out  =>
        if out.result ≠ .ok then .done out.result
        else if out.transfer ≠ transfer ∨ out.total ≠ offset + (src.piece offset).length then .done .corrupt
        else chunks transfer (offset + (src.piece offset).length)
  else
    .call (src.request deadline .appendCommit transfer offset []) fun
      | .error e => .done e
      | .ok out  => .done out.result
termination_by src.data.length - offset
decreasing_by exact src.sub_piece_lt h

/-- `append`. There is no deadline if `begin` failed. -/
def append (deadline : Option Nat) : Client Result :=
  if src.lane ≥ src.domain.lanes ∨ src.policy = .optionalHistorical ∨ src.data = [] ∨
      src.data.length > maxRecordBytes then .done .io
  else
    match deadline with
    | none          => .done .pending
    | some deadline =>
      .call (src.request deadline .appendBegin 0 0 []) fun
        | .error e => .done e
        | .ok out  =>
          if out.result ≠ .ok then .done out.result
          else if out.transfer = 0 then .done .corrupt
          else src.chunks deadline out.transfer 0

end Source

/-- The queue that a client reads, and how much it can take. -/
structure Target where
  domain : Domain
  lane : Nat
  capacity : Nat

/-- A record as a client reads it. -/
structure Record where
  bytes : List UInt8
  token : Token ⊕ LegacyQueue.Token

namespace Target

variable (dst : Target) (deadline : Nat)

/-- The requests of a peek. -/
def request (operation : Operation) (transfer offset : Nat) : Request where
  operation := operation
  deadline := deadline
  transfer := transfer
  offset := offset
  lane := dst.lane
  domain := dst.domain

/-- The token that a reply carries for the queue. -/
def token (out : Reply) : Token ⊕ LegacyQueue.Token :=
  if dst.domain = .segmented then .inl out.token else .inr out.legacyToken

lemma sub_chunk_lt {total offset : Nat} (h : offset < total) :
    total - (offset + min (total - offset) chunkBytes) < total - offset := by
  rw [chunkBytes]
  omega

/-- The loop of `peek`. `data` is what was copied so far. -/
def chunks (transfer total : Nat) (copied : Token ⊕ LegacyQueue.Token) (offset : Nat) (data : List UInt8) :
    Client (Except Result Record) :=
  if h : offset < total then
    .call (dst.request deadline .peekChunk transfer offset) fun
      | .error e => .done (.error e)
      | .ok out  =>
        if out.result ≠ .ok then .done (.error out.result)
        else if out.transfer ≠ transfer ∨ out.total ≠ total ∨ out.bytes.length ≠ min (total - offset) chunkBytes ∨
            dst.token out ≠ copied then .done (.error .corrupt)
        else chunks transfer total copied (offset + min (total - offset) chunkBytes) (data ++ out.bytes)
  else .done (.ok ⟨data, copied⟩)
termination_by total - offset
decreasing_by exact sub_chunk_lt h

/-- `peek`. There is no deadline if `begin` failed. -/
def peek (deadline : Option Nat) : Client (Except Result Record) :=
  if dst.lane ≥ dst.domain.lanes ∨ dst.capacity = 0 then .done (.error .io)
  else
    match deadline with
    | none          => .done (.error .pending)
    | some deadline =>
      .call (dst.request deadline .peekBegin 0 0) fun
        | .error e => .done (.error e)
        | .ok out  =>
          if out.result ≠ .ok then .done (.error out.result)
          else if out.transfer = 0 ∨ out.total = 0 ∨ out.total > maxRecordBytes then .done (.error .corrupt)
          else if out.total > dst.capacity then .done (.error .bufferSmall)
          else dst.chunks deadline out.transfer out.total (dst.token out) 0 []

end Target

/-! ### Runs of clients -/

section Runs

variable {α : Type} {a : α} {steps : List Step} {r : Request} {next : Except Result Reply → Client α}

lemma eq_of_runs_done {b : α} (h : Runs (.done b) steps a) : a = b := by
  cases h
  rfl

/-- A call ended without a reply, or a request was executed. -/
lemma runs_call (h : Runs (.call r next) steps a) :
    (∃ e, (e = .pending ∨ e = .io) ∧ Runs (next (.error e)) steps a) ∨
      ∃ before step after, steps = before ++ step :: after ∧ step.request = r ∧
        Runs (next (.ok step.reply)) after a := by
  cases h with
  | silent he h => exact .inl ⟨_, he, h⟩
  | reply hr h => exact .inr ⟨_, _, _, rfl, hr, h⟩

end Runs

/-- Two steps that were given the same identifier are one. -/
lemma eq_of_given {steps : List Step} {step step' : Step} {t : Nat} (hnodup : (steps.filterMap Step.given).Nodup)
    (hstep : step ∈ steps) (hstep' : step' ∈ steps) (h : step.given = some t) (h' : step'.given = some t) :
    step = step' := by
  induction steps with
  | nil => cases hstep
  | cons first steps ih =>
    have hlater {other : Step} (hfirst : first.given = some t) (hother : other ∈ steps) : other.given ≠ some t := by
      intro hgiven
      rw [List.filterMap_cons_some hfirst] at hnodup
      exact (List.nodup_cons.mp hnodup).1 (List.mem_filterMap.mpr ⟨other, hother, hgiven⟩)
    have hrest : (steps.filterMap Step.given).Nodup := by
      cases hfirst : first.given with
      | none => rwa [List.filterMap_cons_none hfirst] at hnodup
      | some u =>
        rw [List.filterMap_cons_some hfirst] at hnodup
        exact (List.nodup_cons.mp hnodup).2
    rcases List.mem_cons.mp hstep with rfl | hmem
    · rcases List.mem_cons.mp hstep' with rfl | hmem'
      · rfl
      · exact absurd h' (hlater h hmem')
    · rcases List.mem_cons.mp hstep' with rfl | hmem'
      · exact absurd h (hlater h' hmem)
      · exact ih hrest hmem hmem'

/-! ### What the steps of a run say -/

/-- The steps of a run. -/
structure Trace (steps : List Step) : Prop where
  at_step : ∀ {before step after}, steps = before ++ step :: after →
    ∃ s s', Inv before s ∧ Effect s step s'
  nodup : (steps.filterMap Step.given).Nodup

lemma trace_run (legacy quarantine attendance : Port) (inputs : List Input) :
    Trace (run (.zeroed legacy quarantine attendance) inputs) := by
  have hinv : Inv [] (.zeroed legacy quarantine attendance) := inv_of_zero rfl rfl
  refine ⟨fun hsplit => ?_, ?_⟩
  · exact hinv.at_step hsplit
  · obtain ⟨s, hs⟩ := hinv.run inputs
    exact hs.nodup

section Trace

variable {steps before after : List Step} {step : Step}

/-- What was accepted before a transfer began is nothing, so that all of it was accepted since. -/
lemma Copying.accepted_eq {a : AppendCopy} (h : Copying steps a) : ∃ earlier begin between,
    steps = earlier ++ begin :: between ∧ Begins begin a ∧ accepted a.transfer steps = accepted a.transfer between := by
  obtain ⟨earlier, begin, between, rfl, hbegins, hnil⟩ := h.begun
  have hbegin : begin.chunk a.transfer = [] := chunk_of_operation (by rw [hbegins.operation]; nofun) _
  refine ⟨earlier, begin, between, rfl, hbegins, ?_⟩
  rw [accepted_append, hnil, List.nil_append, accepted, List.flatMap_cons, hbegin, List.nil_append]
  rfl

/-- A commit appends what was accepted since its transfer began, and the transfer was not committed before. -/
lemma Trace.committed (h : Trace steps) (hsplit : steps = before ++ step :: after) {call : AppendCall}
    (hcall : step.appended = some call) : step.request.operation = .appendCommit ∧
      (∃ earlier begin between, before = earlier ++ begin :: between ∧
        begin.request.operation = .appendBegin ∧ begin.reply.result = .ok ∧
        begin.reply.transfer = step.request.transfer ∧ call.domain = begin.request.domain ∧
        call.lane = begin.request.lane ∧ call.policy = begin.request.policy ∧
        call.bytes = accepted step.request.transfer between ∧ call.bytes.length = begin.request.total) ∧
      ∀ other ∈ before, other.appended.isSome → other.request.transfer ≠ step.request.transfer := by
  obtain ⟨s, s', hinv, heffect⟩ := h.at_step hsplit
  cases heffect with
  | quiet hok happended happend hread =>
    rw [happended] at hcall
    cases hcall
  | begun | grown | opened | copied => cases hcall
  | @committed r result hop hid happends hfull =>
    cases hcall
    obtain ⟨htransfer, hlane, hpolicy, hdomain, -⟩ := happends
    have hcopying := hinv.copying (by rwa [htransfer])
    obtain ⟨earlier, begin, between, hbefore, hbegins, haccepted⟩ := hcopying.accepted_eq
    have hcontent := hcopying.content
    have hroom : 0 + s.append.total ≤ s.append.bytes.val.length := by
      rw [s.append.bytes.length_val, Nat.zero_add]
      exact hcopying.total_le
    rw [htransfer] at haccepted hcontent
    refine ⟨hop, ⟨earlier, begin, between, hbefore, hbegins.operation, hbegins.result,
      hbegins.transfer.trans htransfer, ?_, ?_, ?_, ?_, ?_⟩, fun other hother hsome => ?_⟩
    · rw [hbegins.domain, hdomain]
    · rw [hbegins.lane, hlane]
    · rw [hbegins.policy, hpolicy]
    · rw [← haccepted, ← hcontent, hfull]
    · rw [hbegins.total, length_slice_of_le hroom]
    · rw [← htransfer]
      exact hcopying.uncalled other hother hsome

/-- Nothing was accepted under an identifier that is given out. -/
lemma Trace.fresh (h : Trace steps) (hsplit : steps = before ++ step :: after)
    (hop : step.request.operation = .appendBegin) (hok : step.reply.result = .ok) :
    accepted step.reply.transfer (before ++ [step]) = [] := by
  obtain ⟨s, s', hinv, heffect⟩ := h.at_step hsplit
  rw [accepted_snoc, chunk_of_operation (by rw [hop]; nofun), List.append_nil]
  cases heffect with
  | quiet hok' =>
    have hcopies := hok' hok
    rw [hop] at hcopies
    cases hcopies
  | grown hop' | committed hop' | opened hop' | copied hop' =>
    rw [hop'] at hop
    cases hop
  | begun => exact hinv.accepted_nil _ (Nat.lt_succ_self _)

/-- A chunk that is accepted goes on where the last one ended. -/
lemma Trace.offset_eq (h : Trace steps) (hsplit : steps = before ++ step :: after)
    (hop : step.request.operation = .appendChunk) (hok : step.reply.result = .ok) :
    step.request.offset = (accepted step.request.transfer before).length := by
  obtain ⟨s, s', hinv, heffect⟩ := h.at_step hsplit
  cases heffect with
  | quiet hok' =>
    have hcopies := hok' hok
    rw [hop] at hcopies
    cases hcopies
  | begun hop' | committed hop' | opened hop' | copied hop' =>
    rw [hop'] at hop
    cases hop
  | @grown r _ hid _ happends hoffset _ =>
    obtain ⟨htransfer, -⟩ := happends
    have hcopying := hinv.copying (by rwa [htransfer])
    have hcontent := hcopying.content
    have hroom : 0 + s.append.used ≤ s.append.bytes.val.length := by
      rw [s.append.bytes.length_val, Nat.zero_add]
      exact hcopying.used_le.trans hcopying.total_le
    rw [htransfer] at hcontent
    rw [← hcontent, length_slice_of_le hroom]
    exact hoffset

/-- A chunk that is read is one of the record that the peek under its identifier returned. -/
lemma Trace.copied (h : Trace steps) (hsplit : steps = before ++ step :: after)
    (hop : step.request.operation = .peekChunk) (hok : step.reply.result = .ok) :
    ∃ begin ∈ before, ∃ p, begin.given = some step.request.transfer ∧ begin.peeked = some p ∧
      step.reply.bytes = slice p.buffer.val step.request.offset
        (min (p.length - step.request.offset) chunkBytes) := by
  obtain ⟨s, s', hinv, heffect⟩ := h.at_step hsplit
  cases heffect with
  | quiet hok' =>
    have hcopies := hok' hok
    rw [hop] at hcopies
    cases hcopies
  | begun hop' | committed hop' | opened hop' | grown hop' =>
    rw [hop'] at hop
    cases hop
  | @copied r _ hid hreads =>
    obtain ⟨htransfer, -⟩ := hreads
    obtain ⟨begin, hbegin, p, hopens⟩ := hinv.reading (by rwa [htransfer])
    refine ⟨begin, hbegin, p, ?_, hopens.peeked, ?_⟩
    · rw [Step.given, if_pos ⟨.inr hopens.operation, hopens.result⟩, hopens.transfer, htransfer]
    · have hcopy := hopens.copy
      dsimp only
      rw [hcopy]
      rfl

/-- The begin of a peek that succeeds. -/
lemma Trace.opened (h : Trace steps) (hsplit : steps = before ++ step :: after)
    (hop : step.request.operation = .peekBegin) (hok : step.reply.result = .ok) :
    ∃ p, step.peeked = some p ∧ p.result = .ok ∧ p.length ≤ maxRecordBytes ∧ step.reply.total = p.length ∧
      (step.request.domain = .segmented → step.reply.token = p.token) ∧
      (step.request.domain ≠ .segmented → step.reply.legacyToken = p.legacyToken) := by
  obtain ⟨s, s', hinv, heffect⟩ := h.at_step hsplit
  cases heffect with
  | quiet hok' =>
    have hcopies := hok' hok
    rw [hop] at hcopies
    cases hcopies
  | begun hop' | committed hop' | grown hop' | copied hop' =>
    rw [hop'] at hop
    cases hop
  | @opened r p _ hp hlength _ => exact ⟨p, rfl, hp, hlength, rfl, fun hd => if_pos hd, fun hd => if_neg hd⟩

end Trace

/-! ### Appends -/

lemma Source.take_append_piece (src : Source) (offset : Nat) :
    src.data.take offset ++ src.piece offset = src.data.take (offset + (src.piece offset).length) := by
  rw [Source.piece, slice, List.take_add]
  congr 1
  simp

/-- What was accepted at a chunk or at the commit is what the client sent, because there is no room for more. -/
lemma accepted_eq_of_length {t : Nat} {pre before : List Step} {data : List UInt8}
    (hpre : accepted t pre = data) (hlength : (accepted t (pre ++ before)).length = data.length) :
    accepted t (pre ++ before) = data := by
  rw [accepted_append, hpre] at hlength ⊢
  rw [List.length_append] at hlength
  have hnil : accepted t before = [] := List.eq_nil_of_length_eq_zero (by omega)
  rw [hnil, List.append_nil]

/-- The commit of an append that returns success. -/
lemma Source.append_of_commit {src : Source} {deadline t offset : Nat} {pre before after : List Step}
    {begin step : Step} (h : Trace (pre ++ (before ++ step :: after))) (hbegin : begin ∈ pre)
    (hgiven : begin.given = some t) (htotal : begin.request.total = src.data.length)
    (haccepted : accepted t pre = src.data) (hrequest : step.request = src.request deadline .appendCommit t offset [])
    (hok : step.reply.result = .ok) : step.appended = some ⟨src.domain, src.lane, src.policy, src.data⟩ := by
  have hsplit : pre ++ (before ++ step :: after) = (pre ++ before) ++ step :: after := by simp
  have hop : step.request.operation = .appendCommit := by rw [hrequest, Source.request]
  obtain ⟨s, s', hinv, heffect⟩ := h.at_step hsplit
  cases heffect with
  | quiet hok' =>
    have hcopies := hok' hok
    rw [hop] at hcopies
    cases hcopies
  | begun hop' | opened hop' | grown hop' | copied hop' =>
    rw [hop'] at hop
    cases hop
  | @committed r result _ hid happends hfull =>
    have hrequest : r = src.request deadline .appendCommit t offset [] := hrequest
    have hlast := h.committed hsplit rfl
    obtain ⟨-, ⟨earlier, first, between, hbefore, hfirst, hfirstOk, htransfer, -, -, -, -, hlength⟩, -⟩ := hlast
    have hid : r.transfer = t := by rw [hrequest, Source.request]
    -- The transfer was begun by this client, so the length is the one that it announced.
    have hsame : first = begin := by
      refine eq_of_given h.nodup ?_ (List.mem_append_left _ hbegin) ?_ hgiven
      · rw [hsplit, hbefore]
        simp
      · rw [Step.given, if_pos ⟨.inl hfirst, hfirstOk⟩, htransfer, hid]
    have hcontent := (hinv.copying (by rwa [happends.1])).content
    rw [happends.1, hid, hfull] at hcontent
    rw [hcontent, hsame, htotal] at hlength
    have hdata := accepted_eq_of_length haccepted hlength
    rw [hcontent, hdata, hrequest]
    rfl

/-- The loop of an append that returns success, from a chunk on. -/
lemma Source.append_of_chunks {src : Source} {deadline t offset : Nat} {pre rest : List Step} {begin : Step}
    (h : Trace (pre ++ rest)) (hbegin : begin ∈ pre) (hgiven : begin.given = some t)
    (htotal : begin.request.total = src.data.length) (hoffset : offset ≤ src.data.length)
    (haccepted : accepted t pre = src.data.take offset) (hruns : Runs (src.chunks deadline t offset) rest .ok) :
    ∃ step ∈ rest, step.appended = some ⟨src.domain, src.lane, src.policy, src.data⟩ := by
  induction hleft : src.data.length - offset using Nat.strong_induction_on generalizing offset pre rest with
  | _ left ih =>
    rw [Source.chunks] at hruns
    split_ifs at hruns with hmore
    · rcases runs_call hruns with ⟨e, he, hruns⟩ | ⟨before, step, after, rfl, hrequest, hruns⟩
      · have := eq_of_runs_done hruns
        rcases he with rfl | rfl <;> cases this
      · dsimp only at hruns
        split_ifs at hruns with hresult hreply
        · exact absurd (eq_of_runs_done hruns).symm hresult
        · cases eq_of_runs_done hruns
        · have hsplit : pre ++ (before ++ step :: after) = (pre ++ before) ++ step :: after := by simp
          have hop : step.request.operation = .appendChunk := by rw [hrequest, Source.request]
          have htransfer : step.request.transfer = t := by rw [hrequest, Source.request]
          have hat := h.offset_eq hsplit hop (not_not.mp hresult)
          rw [htransfer, hrequest, Source.request] at hat
          have hdata : accepted t (pre ++ before) = src.data.take offset := by
            refine accepted_eq_of_length haccepted ?_
            rw [← hat, List.length_take, Nat.min_eq_left hoffset]
          have hchunk : step.chunk t = src.piece offset := by
            rw [Step.chunk, if_pos ⟨hop, htransfer, not_not.mp hresult⟩, hrequest, Source.request]
          have hnext : accepted t (pre ++ before ++ [step]) =
              src.data.take (offset + (src.piece offset).length) := by
            rw [accepted_snoc, hdata, hchunk, src.take_append_piece]
          have hbound : offset + (src.piece offset).length ≤ src.data.length := by
            rw [Source.piece, length_slice]
            omega
          have htrace : Trace (pre ++ before ++ [step] ++ after) := by
            rw [List.append_assoc _ [step] after]
            exact hsplit ▸ h
          obtain ⟨last, hlast, hcall⟩ := ih _ (hleft ▸ src.sub_piece_lt hmore) htrace (by simp [hbegin]) hbound hnext
            hruns rfl
          exact ⟨last, by simp [hlast], hcall⟩
    · obtain rfl : offset = src.data.length := by omega
      rcases runs_call hruns with ⟨e, he, hruns⟩ | ⟨before, step, after, rfl, hrequest, hruns⟩
      · have := eq_of_runs_done hruns
        rcases he with rfl | rfl <;> cases this
      · rw [List.take_length] at haccepted
        exact ⟨step, by simp, append_of_commit h hbegin hgiven htotal haccepted hrequest (eq_of_runs_done hruns).symm⟩

/-- An append that returns success was appended as a whole. -/
lemma Source.append_ok {src : Source} {deadline : Option Nat} {steps : List Step} (h : Trace steps)
    (hruns : Runs (src.append deadline) steps .ok) :
    ∃ step ∈ steps, step.appended = some ⟨src.domain, src.lane, src.policy, src.data⟩ := by
  unfold Source.append at hruns
  split_ifs at hruns
  · cases eq_of_runs_done hruns
  cases deadline with
  | none => cases eq_of_runs_done hruns
  | some deadline =>
    rcases runs_call hruns with ⟨e, he, hruns⟩ | ⟨before, step, after, rfl, hrequest, hruns⟩
    · have := eq_of_runs_done hruns
      rcases he with rfl | rfl <;> cases this
    · dsimp only at hruns
      split_ifs at hruns with hresult hzero
      · exact absurd (eq_of_runs_done hruns).symm hresult
      · cases eq_of_runs_done hruns
      · have hop : step.request.operation = .appendBegin := by rw [hrequest, Source.request]
        have hgiven : step.given = some step.reply.transfer := if_pos ⟨.inl hop, not_not.mp hresult⟩
        have htotal : step.request.total = src.data.length := by rw [hrequest, Source.request]
        have htrace : Trace (before ++ [step] ++ after) := by
          rw [List.append_assoc]
          exact h
        have hfresh := h.fresh rfl hop (not_not.mp hresult)
        obtain ⟨last, hlast, hcall⟩ := append_of_chunks htrace (by simp) hgiven htotal (Nat.zero_le _)
          (hfresh.trans List.take_zero.symm) hruns
        exact ⟨last, by simp [hlast], hcall⟩

/-! ### Peeks -/

/-- The record that a peek returned, as its client gets it. -/
def Peeked.record (p : Peeked) (domain : Domain) : Record where
  bytes := slice p.buffer.val 0 p.length
  token := if domain = .segmented then .inl p.token else .inr p.legacyToken

/-- The loop of a peek that returns success, from a chunk on. -/
lemma Target.peek_of_chunks {dst : Target} {deadline t offset : Nat} {copied : Token ⊕ LegacyQueue.Token}
    {pre rest : List Step} {begin : Step} {p : Peeked} {data : List UInt8} {record : Record} (h : Trace (pre ++ rest))
    (hbegin : begin ∈ pre) (hgiven : begin.given = some t) (hpeeked : begin.peeked = some p)
    (hoffset : offset ≤ p.length) (hdata : data = slice p.buffer.val 0 offset)
    (hruns : Runs (dst.chunks deadline t p.length copied offset data) rest (.ok record)) :
    record = ⟨slice p.buffer.val 0 p.length, copied⟩ := by
  induction hleft : p.length - offset using Nat.strong_induction_on generalizing offset pre rest data with
  | _ left ih =>
    rw [Target.chunks] at hruns
    split_ifs at hruns with hmore
    · rcases runs_call hruns with ⟨e, he, hruns⟩ | ⟨before, step, after, rfl, hrequest, hruns⟩
      · cases eq_of_runs_done hruns
      · dsimp only at hruns
        split_ifs at hruns with hresult hreply
        · cases eq_of_runs_done hruns
        · cases eq_of_runs_done hruns
        · have hsplit : pre ++ (before ++ step :: after) = (pre ++ before) ++ step :: after := by simp
          have hop : step.request.operation = .peekChunk := by rw [hrequest, Target.request]
          obtain ⟨first, hfirst, q, hfirstGiven, hq, hbytes⟩ := h.copied hsplit hop (not_not.mp hresult)
          -- The chunk is of the record that this client's peek returned.
          have hsame : first = begin := by
            refine eq_of_given h.nodup ?_ (List.mem_append_left _ hbegin) ?_ hgiven
            · rw [hsplit]
              exact List.mem_append_left _ hfirst
            · rw [hfirstGiven, hrequest, Target.request]
          obtain rfl : p = q := by
            rw [hsame, hpeeked] at hq
            exact Option.some.inj hq
          rw [hrequest, Target.request] at hbytes
          have hnext : data ++ step.reply.bytes = slice p.buffer.val 0 (offset + min (p.length - offset) chunkBytes) := by
            rw [hdata, hbytes]
            have happend := slice_append_slice p.buffer.val 0 offset (min (p.length - offset) chunkBytes)
            rwa [Nat.zero_add] at happend
          have htrace : Trace (pre ++ before ++ [step] ++ after) := by
            rw [List.append_assoc _ [step] after]
            exact hsplit ▸ h
          exact ih _ (hleft ▸ sub_chunk_lt hmore) htrace (by simp [hbegin]) (by omega) hnext hruns rfl
    · obtain rfl : offset = p.length := by omega
      rw [← hdata]
      exact Except.ok.inj (eq_of_runs_done hruns)

/-- A peek that returns success got one record that one peek of a queue returned. -/
lemma Target.peek_ok {dst : Target} {deadline : Option Nat} {steps : List Step} {record : Record} (h : Trace steps)
    (hruns : Runs (dst.peek deadline) steps (.ok record)) :
    ∃ step ∈ steps, step.request.operation = .peekBegin ∧ step.request.domain = dst.domain ∧
      step.request.lane = dst.lane ∧ ∃ p, step.peeked = some p ∧ p.result = .ok ∧ p.length ≤ maxRecordBytes ∧
        record = p.record dst.domain := by
  unfold Target.peek at hruns
  split_ifs at hruns
  · cases eq_of_runs_done hruns
  cases deadline with
  | none => cases eq_of_runs_done hruns
  | some deadline =>
    rcases runs_call hruns with ⟨e, he, hruns⟩ | ⟨before, step, after, rfl, hrequest, hruns⟩
    · cases eq_of_runs_done hruns
    · dsimp only at hruns
      split_ifs at hruns with hresult hreply hcapacity
      · cases eq_of_runs_done hruns
      · cases eq_of_runs_done hruns
      · cases eq_of_runs_done hruns
      · have hop : step.request.operation = .peekBegin := by rw [hrequest, Target.request]
        have hdomain : step.request.domain = dst.domain := by rw [hrequest, Target.request]
        have hlane : step.request.lane = dst.lane := by rw [hrequest, Target.request]
        obtain ⟨p, hpeeked, hp, hlength, htotal, htoken, hlegacy⟩ := h.opened rfl hop (not_not.mp hresult)
        have hgiven : step.given = some step.reply.transfer := if_pos ⟨.inr hop, not_not.mp hresult⟩
        have htrace : Trace (before ++ [step] ++ after) := by
          rw [List.append_assoc]
          exact h
        rw [htotal] at hruns
        have hrecord := peek_of_chunks htrace (by simp) hgiven hpeeked (Nat.zero_le _) rfl hruns
        refine ⟨step, by simp, hop, hdomain, hlane, p, hpeeked, hp, hlength, ?_⟩
        rw [hrecord, Peeked.record, Target.token]
        rw [hdomain] at htoken hlegacy
        split_ifs with hsegmented
        · rw [htoken hsegmented]
        · rw [hlegacy hsegmented]

/-! ### Whole copies -/

lemma Trace.pairwise {steps : List Step} (h : Trace steps) : steps.Pairwise fun step step' =>
    step.appended.isSome → step'.appended.isSome → step.request.transfer ≠ step'.request.transfer := by
  refine List.pairwise_iff_getElem.mpr fun i j hi hj hij hsome hsome' => ?_
  obtain ⟨call, hcall⟩ := Option.isSome_iff_exists.mp hsome'
  have hsplit : steps = steps.take j ++ steps[j] :: steps.drop (j + 1) := by
    rw [← List.drop_eq_getElem_cons, List.take_append_drop]
  refine (h.committed hsplit hcall).2.2 _ ?_ hsome
  exact List.mem_take_iff_getElem.mpr ⟨i, by omega, rfl⟩

end SegmentedQueue
