import AutoAttn.SegmentedQueue.Basic

/-!
# What a transfer holds

An identifier is given out once. As long as the owner's buffer carries it, the buffer holds the chunks that were
accepted under it, or the record that the peek returned.
-/

namespace SegmentedQueue

open Bytes

/-! ### One request -/

/-- An operation that begins, fills, commits or reads a copy. -/
def Operation.copies : Operation → Bool
  | .appendBegin | .appendChunk | .appendCommit | .peekBegin | .peekChunk => true
  | _ => false

/-- The copy that `ZQ_PEEK_BEGIN` leaves. -/
def ReadCopy.ofPeeked (id : Nat) (r : Request) (p : Peeked) : ReadCopy where
  transfer := id
  deadline := r.deadline
  length := p.length
  lane := r.lane
  domain := r.domain
  token := if r.domain = .segmented then p.token else {}
  legacyToken := if r.domain = .segmented then noLegacyToken else p.legacyToken
  bytes := p.buffer

/-- The copy that `ZQ_APPEND_BEGIN` leaves. -/
def AppendCopy.ofRequest (id : Nat) (r : Request) : AppendCopy where
  transfer := id
  deadline := r.deadline
  used := 0
  total := r.total
  lane := r.lane
  policy := r.policy
  domain := r.domain
  bytes := .zero maxRecordBytes

/-- What the switch of `zq_store_execute` did. -/
inductive Effect (s : Store) : Step → Store → Prop
  /-- Nothing was copied. At most, a buffer was given up. -/
  | quiet {step : Step} {append : AppendCopy} {read : ReadCopy}
      (hok : step.reply.result = .ok → step.request.operation.copies = false) (happended : step.appended = none)
      (happend : append = s.append ∨ append.transfer = 0) (hread : read = s.read ∨ read.transfer = 0) :
      Effect s step { s with append, read }
  | begun {r : Request} (hop : r.operation = .appendBegin) (htotal : r.total ≤ maxRecordBytes)
      (hnext : s.nextTransfer ≠ uint64Max) :
      Effect s ⟨r, { result := .ok, transfer := s.nextTransfer + 1 }, none, none⟩
        { s with nextTransfer := s.nextTransfer + 1, append := .ofRequest (s.nextTransfer + 1) r }
  | grown {r : Request} (hop : r.operation = .appendChunk) (hid : r.transfer ≠ 0) (hbytes : r.bytes ≠ [])
      (happends : s.Appends r) (hoffset : r.offset = s.append.used)
      (hfits : r.bytes.length ≤ s.append.total - s.append.used) :
      Effect s
        ⟨r, { result := .ok, transfer := r.transfer, total := s.append.used + r.bytes.length }, none, none⟩
        { s with
          append :=
            { s.append with
              bytes := s.append.bytes.patch s.append.used r.bytes
              used := s.append.used + r.bytes.length } }
  | committed {r : Request} {result : Result} (hop : r.operation = .appendCommit) (hid : r.transfer ≠ 0)
      (happends : s.Appends r) (hfull : s.append.used = s.append.total) :
      Effect s
        ⟨r, { result }, some ⟨r.domain, r.lane, r.policy, slice s.append.bytes.val 0 s.append.total⟩, none⟩
        { s with append := { s.append with transfer := 0, bytes := .zero maxRecordBytes } }
  | opened {r : Request} {p : Peeked} (hop : r.operation = .peekBegin) (hp : p.result = .ok)
      (hlength : p.length ≤ maxRecordBytes) (hnext : s.nextTransfer ≠ uint64Max) :
      Effect s
        ⟨r, { result := .ok, transfer := s.nextTransfer + 1, total := p.length,
              token := (ReadCopy.ofPeeked 0 r p).token, legacyToken := (ReadCopy.ofPeeked 0 r p).legacyToken },
          none, some p⟩
        { s with nextTransfer := s.nextTransfer + 1, read := .ofPeeked (s.nextTransfer + 1) r p }
  | copied {r : Request} (hop : r.operation = .peekChunk) (hid : r.transfer ≠ 0) (hreads : s.Reads r) :
      Effect s
        ⟨r, { result := .ok, transfer := r.transfer, total := s.read.length, token := s.read.token,
              legacyToken := s.read.legacyToken,
              bytes := slice s.read.bytes.val r.offset (min (s.read.length - r.offset) chunkBytes) }, none, none⟩
        s

section Effect

variable {s : Store} {r : Request} {a : Answers}

/-- A request that copied nothing and left the store alone. -/
lemma Effect.idle {step : Step} (hok : step.reply.result = .ok → step.request.operation.copies = false)
    (happended : step.appended = none) : Effect s step s :=
  .quiet hok happended (.inl rfl) (.inl rfl)

lemma effect_appendBegin (hop : r.operation = .appendBegin) (htotal : r.total ≤ maxRecordBytes) :
    Effect s ((s.appendBegin r).step r) (s.appendBegin r).store := by
  by_cases hnext : s.nextTransfer = uint64Max
  · simp only [Store.appendBegin, Store.transfer, if_pos hnext, Executed.step]
    exact .quiet nofun rfl (.inr rfl) (.inl rfl)
  · simp only [Store.appendBegin, Store.transfer, if_neg hnext, Executed.step]
    exact .begun hop htotal hnext

lemma effect_appendChunk (hop : r.operation = .appendChunk) (hid : r.transfer ≠ 0) (hbytes : r.bytes ≠ []) :
    Effect s ((s.appendChunk r).step r) (s.appendChunk r).store := by
  rw [Store.appendChunk]
  by_cases happends : s.Appends r
  · rw [if_neg (not_not.mpr happends)]
    split_ifs with hstale
    · exact .idle nofun rfl
    · obtain ⟨hoffset, hfits⟩ := not_or.mp hstale
      rw [happends.1]
      exact .grown hop hid hbytes happends (not_not.mp hoffset) (not_lt.mp hfits)
  · rw [if_pos happends]
    exact .idle nofun rfl

lemma effect_appendCommit (hop : r.operation = .appendCommit) (hid : r.transfer ≠ 0) :
    Effect s ((s.appendCommit r a).step r) (s.appendCommit r a).store := by
  rw [Store.appendCommit]
  by_cases happends : s.Appends r
  · rw [if_neg (not_not.mpr happends)]
    by_cases hfull : s.append.used = s.append.total
    · rw [if_neg (not_not.mpr hfull)]
      dsimp only
      split_ifs with hport
      · exact .committed hop hid happends hfull
      · exact .quiet nofun rfl (.inr rfl) (.inl rfl)
    · rw [if_pos hfull]
      exact .idle nofun rfl
  · rw [if_pos happends]
    exact .idle nofun rfl

lemma effect_peekBegin (hop : r.operation = .peekBegin) :
    Effect s ((s.peekBegin r a).step r) (s.peekBegin r a).store := by
  unfold Store.peekBegin
  dsimp only
  by_cases hport : s.reaches r.domain Port.peek = true
  · rw [if_pos hport]
    by_cases hresult : a.peek.result = .ok
    · rw [if_neg (not_not.mpr hresult)]
      by_cases hlength : a.peek.length = 0 ∨ a.peek.length > maxRecordBytes
      · rw [if_pos hlength]
        exact .quiet nofun rfl (.inl rfl) (.inr rfl)
      · rw [if_neg hlength]
        by_cases hnext : s.nextTransfer = uint64Max
        · simp only [Store.transfer, if_pos hnext]
          exact .quiet nofun rfl (.inl rfl) (.inr rfl)
        · simp only [Store.transfer, if_neg hnext, Nat.succ_ne_zero, if_false]
          exact .opened hop hresult (not_lt.mp (not_or.mp hlength).2) hnext
    · rw [if_pos hresult]
      exact .quiet (fun hok => absurd hok hresult) rfl (.inl rfl) (.inr rfl)
  · rw [if_neg hport]
    exact .quiet nofun rfl (.inl rfl) (.inr rfl)

lemma effect_peekChunk (hop : r.operation = .peekChunk) (hid : r.transfer ≠ 0) :
    Effect s ((s.peekChunk r).step r) (s.peekChunk r).store := by
  rw [Store.peekChunk]
  by_cases hreads : s.Reads r
  · rw [if_neg (not_not.mpr hreads), hreads.1]
    exact .copied hop hid hreads
  · rw [if_pos hreads]
    exact .idle nofun rfl

lemma effect_perform (hvalid : r.valid = true) : Effect s ((s.perform r a).step r) (s.perform r a).store := by
  have hfields : r.fields = true := by
    rw [Request.valid, Bool.and_eq_true] at hvalid
    exact hvalid.2
  cases hop : r.operation with
  | appendBegin =>
    simp only [Request.fields, hop, decide_eq_true_eq] at hfields
    simp only [Store.perform, hop]
    exact effect_appendBegin hop hfields.2.2.2.2
  | appendChunk =>
    simp only [Request.fields, hop, decide_eq_true_eq] at hfields
    simp only [Store.perform, hop]
    exact effect_appendChunk hop hfields.1 hfields.2.1
  | appendCommit =>
    simp only [Request.fields, hop, decide_eq_true_eq] at hfields
    simp only [Store.perform, hop]
    exact effect_appendCommit hop hfields.1
  | peekBegin =>
    simp only [Store.perform, hop]
    exact effect_peekBegin hop
  | peekChunk =>
    simp only [Request.fields, hop, decide_eq_true_eq] at hfields
    simp only [Store.perform, hop]
    exact effect_peekChunk hop hfields.1
  | settle | snapshot | generation | recover | probe =>
    simp only [Store.perform, hop]
    exact .idle (fun _ => by rw [Executed.step, hop]; rfl) rfl

/-- A buffer that expires is given up. -/
lemma expire_cases (s : Store) (now : Nat) : ∃ append read, s.expire now = { s with append, read } ∧
    (append = s.append ∨ append.transfer = 0) ∧ (read = s.read ∨ read.transfer = 0) := by
  refine ⟨_, _, rfl, ?_, ?_⟩
  · split_ifs
    · exact .inr rfl
    · exact .inl rfl
  · split_ifs
    · exact .inr rfl
    · exact .inl rfl

end Effect

/-- A request is executed on the store as it is, or on what is left of it when the buffers have expired. -/
lemma effect_execute (s : Store) (now : Nat) (r : Request) (a : Answers) :
    ∃ s₁, (s₁ = s ∨ s₁ = s.expire now) ∧ Effect s₁ ((s.execute now r a).step r) (s.execute now r a).store := by
  rw [Store.execute]
  split_ifs with hvalid hdeadline
  · exact ⟨s, .inl rfl, .idle nofun rfl⟩
  · exact ⟨_, .inr rfl, .idle nofun rfl⟩
  · exact ⟨_, .inr rfl, effect_perform (Bool.not_eq_false _ ▸ hvalid)⟩

/-! ### The invariant -/

/-- The step that began a copy. -/
structure Begins (step : Step) (a : AppendCopy) : Prop where
  operation : step.request.operation = .appendBegin
  result : step.reply.result = .ok
  transfer : step.reply.transfer = a.transfer
  total : step.request.total = a.total
  lane : step.request.lane = a.lane
  policy : step.request.policy = a.policy
  domain : step.request.domain = a.domain

/-- The buffer holds what was accepted since its transfer began. -/
structure Copying (steps : List Step) (a : AppendCopy) : Prop where
  begun : ∃ before begin between, steps = before ++ begin :: between ∧ Begins begin a ∧
    accepted a.transfer before = []
  content : slice a.bytes.val 0 a.used = accepted a.transfer steps
  used_le : a.used ≤ a.total
  total_le : a.total ≤ maxRecordBytes
  uncalled : ∀ step ∈ steps, step.appended.isSome → step.request.transfer ≠ a.transfer

/-- The step that read the record of a copy. -/
structure Opens (step : Step) (read : ReadCopy) (p : Peeked) : Prop where
  operation : step.request.operation = .peekBegin
  result : step.reply.result = .ok
  transfer : step.reply.transfer = read.transfer
  total : step.reply.total = read.length
  peeked : step.peeked = some p
  copy : read = .ofPeeked read.transfer step.request p
  length_le : p.length ≤ maxRecordBytes
  peeked_ok : p.result = .ok

structure Inv (steps : List Step) (s : Store) : Prop where
  given_le : ∀ t ∈ steps.filterMap Step.given, t ≤ s.nextTransfer
  nodup : (steps.filterMap Step.given).Nodup
  accepted_nil : ∀ t, s.nextTransfer < t → accepted t steps = []
  called_le : ∀ step ∈ steps, step.appended.isSome → step.request.transfer ≤ s.nextTransfer
  append_le : s.append.transfer ≤ s.nextTransfer
  copying : s.append.transfer ≠ 0 → Copying steps s.append
  reading : s.read.transfer ≠ 0 → ∃ step ∈ steps, ∃ p, Opens step s.read p

/-! ### The invariant is kept -/

section Steps

variable {steps : List Step} {step : Step} {s : Store}

lemma accepted_append (t : Nat) (steps steps' : List Step) :
    accepted t (steps ++ steps') = accepted t steps ++ accepted t steps' :=
  List.flatMap_append

lemma accepted_snoc (t : Nat) (steps : List Step) (step : Step) :
    accepted t (steps ++ [step]) = accepted t steps ++ step.chunk t := by
  rw [accepted_append]
  exact congrArg _ (List.flatMap_singleton _ _)

lemma given_eq_none (hok : step.reply.result = .ok → step.request.operation.copies = false) : step.given = none := by
  rw [Step.given, if_neg]
  rintro ⟨hop, hresult⟩
  have hcopies := hok hresult
  rcases hop with hop | hop
  · rw [hop] at hcopies
    cases hcopies
  · rw [hop] at hcopies
    cases hcopies

lemma chunk_eq_nil (hok : step.reply.result = .ok → step.request.operation.copies = false) (t : Nat) :
    step.chunk t = [] := by
  rw [Step.chunk, if_neg]
  rintro ⟨hop, -, hresult⟩
  have hcopies := hok hresult
  rw [hop] at hcopies
  cases hcopies

lemma chunk_of_operation (hop : step.request.operation ≠ .appendChunk) (t : Nat) : step.chunk t = [] := by
  rw [Step.chunk, if_neg]
  exact fun h => hop h.1

lemma given_of_operation (hop : step.request.operation ≠ .appendBegin) (hop' : step.request.operation ≠ .peekBegin) :
    step.given = none := by
  rw [Step.given, if_neg]
  rintro ⟨h | h, -⟩
  · exact hop h
  · exact hop' h

/-- One more step that is no part of the copy. -/
lemma Copying.snoc {a : AppendCopy} (h : Copying steps a) (hchunk : step.chunk a.transfer = [])
    (huncalled : step.appended.isSome → step.request.transfer ≠ a.transfer) : Copying (steps ++ [step]) a := by
  obtain ⟨before, begin, between, rfl, hbegins, hbefore⟩ := h.begun
  refine ⟨⟨before, begin, between ++ [step], by simp, hbegins, hbefore⟩, ?_, h.used_le, h.total_le, ?_⟩
  · rw [h.content, accepted_snoc, hchunk, List.append_nil]
  · intro other hother
    rcases List.mem_append.mp hother with hother | hother
    · exact h.uncalled other hother
    · rw [List.mem_singleton.mp hother]
      exact huncalled

/-- Buffers may be given up at any time. -/
lemma Inv.forget (h : Inv steps s) {append : AppendCopy} {read : ReadCopy}
    (happend : append = s.append ∨ append.transfer = 0) (hread : read = s.read ∨ read.transfer = 0) :
    Inv steps { s with append, read } where
  given_le := h.given_le
  nodup := h.nodup
  accepted_nil := h.accepted_nil
  called_le := h.called_le
  append_le := by
    rcases happend with rfl | hzero
    · exact h.append_le
    · rw [hzero]
      exact Nat.zero_le _
  copying hne := by
    rcases happend with rfl | hzero
    · exact h.copying hne
    · exact absurd hzero hne
  reading hne := by
    rcases hread with rfl | hzero
    · exact h.reading hne
    · exact absurd hzero hne

lemma Inv.expire (h : Inv steps s) (now : Nat) : Inv steps (s.expire now) := by
  obtain ⟨append, read, heq, happend, hread⟩ := expire_cases s now
  rw [heq]
  exact h.forget happend hread

/-- A step that is given no identifier, is no accepted chunk and no commit. -/
lemma Inv.idle (h : Inv steps s) (hgiven : step.given = none) (hchunk : ∀ t, step.chunk t = [])
    (happended : step.appended = none) : Inv (steps ++ [step]) s where
  given_le := by
    rw [List.filterMap_append, List.filterMap_cons_none hgiven, List.filterMap_nil, List.append_nil]
    exact h.given_le
  nodup := by
    rw [List.filterMap_append, List.filterMap_cons_none hgiven, List.filterMap_nil, List.append_nil]
    exact h.nodup
  accepted_nil t ht := by rw [accepted_snoc, hchunk, h.accepted_nil t ht, List.append_nil]
  called_le other hother hsome := by
    rcases List.mem_append.mp hother with hother | hother
    · exact h.called_le other hother hsome
    · rw [List.mem_singleton.mp hother, happended] at hsome
      cases hsome
  append_le := h.append_le
  copying hne := (h.copying hne).snoc (hchunk _) (by rw [happended]; nofun)
  reading hne := by
    obtain ⟨other, hother, p, hopens⟩ := h.reading hne
    exact ⟨other, List.mem_append_left _ hother, p, hopens⟩

/-- A step that is given the next identifier. -/
lemma Inv.given (h : Inv steps s) (hgiven : step.given = some (s.nextTransfer + 1)) (hchunk : ∀ t, step.chunk t = [])
    (happended : step.appended = none) {append : AppendCopy} {read : ReadCopy}
    (happend : append = s.append ∨ append.transfer = s.nextTransfer + 1 ∧ Copying (steps ++ [step]) append)
    (hread : read = s.read ∨ ∃ p, Opens step read p) :
    Inv (steps ++ [step]) { s with nextTransfer := s.nextTransfer + 1, append, read } where
  given_le t ht := by
    rw [List.filterMap_append, List.filterMap_cons_some hgiven, List.filterMap_nil] at ht
    rcases List.mem_append.mp ht with ht | ht
    · exact (h.given_le t ht).trans (Nat.le_succ _)
    · exact (List.mem_singleton.mp ht).le
  nodup := by
    rw [List.filterMap_append, List.filterMap_cons_some hgiven, List.filterMap_nil]
    refine List.nodup_append.mpr ⟨h.nodup, List.nodup_singleton _, ?_⟩
    rintro t ht _ hnew rfl
    have hle := h.given_le t ht
    rw [List.mem_singleton.mp hnew] at hle
    omega
  accepted_nil t ht := by
    rw [accepted_snoc, hchunk, h.accepted_nil t ((Nat.lt_succ_self _).trans ht), List.append_nil]
  called_le other hother hsome := by
    rcases List.mem_append.mp hother with hother | hother
    · exact (h.called_le other hother hsome).trans (Nat.le_succ _)
    · rw [List.mem_singleton.mp hother, happended] at hsome
      cases hsome
  append_le := by
    rcases happend with rfl | ⟨heq, -⟩
    · exact h.append_le.trans (Nat.le_succ _)
    · exact heq.le
  copying hne := by
    rcases happend with rfl | ⟨-, hcopying⟩
    · exact (h.copying hne).snoc (hchunk _) (by rw [happended]; nofun)
    · exact hcopying
  reading hne := by
    rcases hread with rfl | ⟨p, hopens⟩
    · obtain ⟨other, hother, p, hopens⟩ := h.reading hne
      exact ⟨other, List.mem_append_left _ hother, p, hopens⟩
    · exact ⟨step, by simp, p, hopens⟩

/-- A chunk is copied to where the last one ended. -/
lemma Copying.grow {a : AppendCopy} (h : Copying steps a) (hchunk : step.chunk a.transfer = step.request.bytes)
    (happended : step.appended = none) (hfits : step.request.bytes.length ≤ a.total - a.used) :
    Copying (steps ++ [step])
      { a with bytes := a.bytes.patch a.used step.request.bytes, used := a.used + step.request.bytes.length } := by
  obtain ⟨before, begin, between, hsteps, hbegins, hbefore⟩ := h.begun
  have hused := h.used_le
  have htotal := h.total_le
  have hroom : a.used + step.request.bytes.length ≤ a.bytes.val.length := by
    rw [a.bytes.length_val]
    omega
  refine ⟨⟨before, begin, between ++ [step], by simp [hsteps], ⟨hbegins.operation, hbegins.result, hbegins.transfer,
    hbegins.total, hbegins.lane, hbegins.policy, hbegins.domain⟩, hbefore⟩, ?_, ?_, h.total_le, ?_⟩
  · dsimp only
    rw [Block.val_patch (by omega), ← slice_append_slice, slice_patch_before (by omega) hroom, h.content, Nat.zero_add,
      slice_patch_self hroom, accepted_snoc, hchunk]
  · dsimp only
    omega
  · intro other hother hsome
    rcases List.mem_append.mp hother with hother | hother
    · exact h.uncalled other hother hsome
    · rw [List.mem_singleton.mp hother, happended] at hsome
      cases hsome

lemma Inv.grow (h : Inv steps s) {r : Request} {reply : Reply} (hop : r.operation = .appendChunk)
    (hid : r.transfer ≠ 0) (happends : s.Appends r) (hfits : r.bytes.length ≤ s.append.total - s.append.used)
    (hok : reply.result = .ok) : Inv (steps ++ [⟨r, reply, none, none⟩])
      { s with
        append :=
          { s.append with
            bytes := s.append.bytes.patch s.append.used r.bytes
            used := s.append.used + r.bytes.length } } := by
  have hgiven : Step.given ⟨r, reply, none, none⟩ = none :=
    given_of_operation (by rw [hop]; nofun) (by rw [hop]; nofun)
  have hcopying := h.copying (by rwa [happends.1])
  refine ⟨?_, ?_, ?_, ?_, h.append_le, fun _ => hcopying.grow ?_ rfl hfits, ?_⟩
  · rw [List.filterMap_append, List.filterMap_cons_none hgiven, List.filterMap_nil, List.append_nil]
    exact h.given_le
  · rw [List.filterMap_append, List.filterMap_cons_none hgiven, List.filterMap_nil, List.append_nil]
    exact h.nodup
  · intro t ht
    have hother : Step.chunk t ⟨r, reply, none, none⟩ = [] := by
      rw [Step.chunk, if_neg]
      rintro ⟨-, rfl, -⟩
      have hle := h.append_le
      rw [happends.1] at hle
      exact (hle.trans_lt ht).false
    rw [accepted_snoc, hother, h.accepted_nil t ht, List.append_nil]
  · intro other hother hsome
    rcases List.mem_append.mp hother with hother | hother
    · exact h.called_le other hother hsome
    · rw [List.mem_singleton.mp hother] at hsome
      cases hsome
  · exact if_pos ⟨hop, happends.1.symm, hok⟩
  · intro hne
    obtain ⟨other, hother, p, hopens⟩ := h.reading hne
    exact ⟨other, List.mem_append_left _ hother, p, hopens⟩

lemma Inv.begun (h : Inv steps s) {r : Request} {reply : Reply} (hop : r.operation = .appendBegin)
    (htotal : r.total ≤ maxRecordBytes) (hok : reply.result = .ok) (hid : reply.transfer = s.nextTransfer + 1) :
    Inv (steps ++ [⟨r, reply, none, none⟩])
      { s with nextTransfer := s.nextTransfer + 1, append := .ofRequest (s.nextTransfer + 1) r } := by
  have hgiven : Step.given ⟨r, reply, none, none⟩ = some (s.nextTransfer + 1) := by
    rw [← hid]
    exact if_pos ⟨.inl hop, hok⟩
  have hchunk : ∀ t, Step.chunk t ⟨r, reply, none, none⟩ = [] := chunk_of_operation (by rw [hop]; nofun)
  have hfresh := h.accepted_nil (s.nextTransfer + 1) (Nat.lt_succ_self _)
  refine h.given hgiven hchunk rfl (.inr ⟨rfl, ?_⟩) (.inl rfl)
  refine ⟨⟨steps, _, [], rfl, ⟨hop, hok, hid, rfl, rfl, rfl, rfl⟩, hfresh⟩, ?_, Nat.zero_le _, htotal, ?_⟩
  · rw [accepted_snoc, hchunk, List.append_nil]
    exact hfresh.symm
  · intro other hother hsome
    rcases List.mem_append.mp hother with hother | hother
    · exact ((h.called_le other hother hsome).trans_lt (Nat.lt_succ_self _)).ne
    · rw [List.mem_singleton.mp hother] at hsome
      cases hsome

lemma Inv.committed (h : Inv steps s) {r : Request} {reply : Reply} {call : AppendCall}
    (hop : r.operation = .appendCommit) (happends : s.Appends r) :
    Inv (steps ++ [⟨r, reply, some call, none⟩])
      { s with append := { s.append with transfer := 0, bytes := .zero maxRecordBytes } } := by
  have hgiven : Step.given ⟨r, reply, some call, none⟩ = none :=
    given_of_operation (by rw [hop]; nofun) (by rw [hop]; nofun)
  have hchunk : ∀ t, Step.chunk t ⟨r, reply, some call, none⟩ = [] := chunk_of_operation (by rw [hop]; nofun)
  refine ⟨?_, ?_, ?_, ?_, Nat.zero_le _, fun hne => absurd rfl hne, ?_⟩
  · rw [List.filterMap_append, List.filterMap_cons_none hgiven, List.filterMap_nil, List.append_nil]
    exact h.given_le
  · rw [List.filterMap_append, List.filterMap_cons_none hgiven, List.filterMap_nil, List.append_nil]
    exact h.nodup
  · intro t ht
    rw [accepted_snoc, hchunk, h.accepted_nil t ht, List.append_nil]
  · intro other hother hsome
    rcases List.mem_append.mp hother with hother | hother
    · exact h.called_le other hother hsome
    · rw [List.mem_singleton.mp hother]
      exact happends.1 ▸ h.append_le
  · intro hne
    obtain ⟨other, hother, p, hopens⟩ := h.reading hne
    exact ⟨other, List.mem_append_left _ hother, p, hopens⟩

lemma Inv.opened (h : Inv steps s) {r : Request} {reply : Reply} {p : Peeked} (hop : r.operation = .peekBegin)
    (hok : reply.result = .ok) (hid : reply.transfer = s.nextTransfer + 1) (htotal : reply.total = p.length)
    (hp : p.result = .ok) (hlength : p.length ≤ maxRecordBytes) :
    Inv (steps ++ [⟨r, reply, none, some p⟩])
      { s with nextTransfer := s.nextTransfer + 1, read := .ofPeeked (s.nextTransfer + 1) r p } := by
  have hgiven : Step.given ⟨r, reply, none, some p⟩ = some (s.nextTransfer + 1) := by
    rw [← hid]
    exact if_pos ⟨.inr hop, hok⟩
  have hchunk : ∀ t, Step.chunk t ⟨r, reply, none, some p⟩ = [] := chunk_of_operation (by rw [hop]; nofun)
  exact h.given hgiven hchunk rfl (.inl rfl) (.inr ⟨p, hop, hok, hid, htotal, rfl, rfl, hlength, hp⟩)

lemma Inv.effect {s' : Store} (h : Inv steps s) (heffect : Effect s step s') : Inv (steps ++ [step]) s' := by
  cases heffect with
  | quiet hok happended happend hread =>
    exact (h.idle (given_eq_none hok) (chunk_eq_nil hok) happended).forget happend hread
  | begun hop htotal hnext => exact h.begun hop htotal rfl rfl
  | grown hop hid hbytes happends hoffset hfits => exact h.grow hop hid happends hfits rfl
  | committed hop hid happends hfull => exact h.committed hop happends
  | opened hop hp hlength hnext => exact h.opened hop rfl rfl rfl hp hlength
  | copied hop hid hreads =>
    exact h.idle (given_of_operation (by rw [hop]; nofun) (by rw [hop]; nofun))
      (chunk_of_operation (by rw [hop]; nofun)) rfl

end Steps

/-! ### Whole runs -/

/-- At every step of a run, the invariant holds of the store that the request met. -/
lemma Inv.at_step {steps : List Step} {s : Store} (h : Inv steps s) {inputs : List Input} {before after : List Step}
    {step : Step} (hrun : run s inputs = before ++ step :: after) :
    ∃ s₁ s₂, Inv (steps ++ before) s₁ ∧ Effect s₁ step s₂ := by
  induction inputs generalizing steps s before with
  | nil => simp [run] at hrun
  | cons input inputs ih =>
    obtain ⟨s₁, hs₁, heffect⟩ := effect_execute s input.now input.request input.answers
    have hinv : Inv steps s₁ := by
      rcases hs₁ with rfl | rfl
      · exact h
      · exact h.expire input.now
    cases before with
    | nil =>
      obtain ⟨rfl, -⟩ := List.cons.inj hrun
      exact ⟨s₁, _, by rwa [List.append_nil], heffect⟩
    | cons first before =>
      obtain ⟨rfl, hrest⟩ := List.cons.inj hrun
      have hnext := ih (hinv.effect heffect) hrest
      rwa [List.append_assoc] at hnext

lemma Inv.run {steps : List Step} {s : Store} (h : Inv steps s) (inputs : List Input) :
    ∃ s', Inv (steps ++ run s inputs) s' := by
  induction inputs generalizing steps s with
  | nil => exact ⟨s, by rwa [SegmentedQueue.run, List.append_nil]⟩
  | cons input inputs ih =>
    obtain ⟨s₁, hs₁, heffect⟩ := effect_execute s input.now input.request input.answers
    have hinv : Inv steps s₁ := by
      rcases hs₁ with rfl | rfl
      · exact h
      · exact h.expire input.now
    have hnext := ih (hinv.effect heffect)
    rwa [List.append_assoc] at hnext

lemma inv_of_zero {s : Store} (happend : s.append.transfer = 0) (hread : s.read.transfer = 0) : Inv [] s where
  given_le := by simp
  nodup := List.nodup_nil
  accepted_nil _ _ := rfl
  called_le := by simp
  append_le := happend ▸ Nat.zero_le _
  copying hne := absurd happend hne
  reading hne := absurd hread hne

end SegmentedQueue
