import AutoAttn.LegacyQueue.Effects
import AutoAttn.Tiling

/-!
# A legacy queue loses no byte

Over every run of the operations, with failures, resets of the device and other code that appends to the
file, the settled tokens cover the file up to the cursor, one after the other.
-/

namespace LegacyQueue

open Crash Crash.Prog Tiling
open ZoneLite (extend extend_append)
open Bytes (slice length_slice)

/-! ### Runs -/

inductive Op where
  | lqOpen
  | lqOpenStep
  | lqPeek (capacity : Nat)
  | lqCheckpointEvidence (capacity : Nat)
  | lqSettle (token : Token)
  | lqSettleEvidence (token : Token)
  | lqReclaim
deriving DecidableEq

/-- The result of an operation that also returns data. -/
def resultOnly {α : Type} (p : Prog World (Result × α)) : Prog World Result := do return (← p).1

def Op.prog : Op → Prog World Result
  | lqOpen                        => LegacyQueue.lqOpen
  | lqOpenStep                    => LegacyQueue.lqOpenStep
  | lqPeek capacity               => resultOnly (LegacyQueue.lqPeek capacity)
  | lqCheckpointEvidence capacity => resultOnly (LegacyQueue.lqCheckpointEvidence capacity)
  | lqSettle token                => LegacyQueue.lqSettle token
  | lqSettleEvidence token        => LegacyQueue.lqSettleEvidence token
  | lqReclaim                     => LegacyQueue.lqReclaim

/-- A call of an operation. There is no result if the device was reset in it. -/
structure Event where
  op : Op
  result : Option Result
  before : World
  after : World

/-- The device was reset, and the queue in memory is lost. -/
def World.reset (w : World) : World := { w with q := {} }

/-- Other code appends to the file. -/
def World.append (w : World) (data : List UInt8) : World := { w with file := some (w.file.getD [] ++ data) }

def call (op : Op) (w : World) (fs : List Fate) : Event :=
  match op.prog.run w fs with
  | .done r w' _ => ⟨op, some r, w, w'⟩
  | .halt w'     => ⟨op, none, w, w'.reset⟩

inductive Run (w₀ : World) : List Event → World → Prop where
  | nil : Run w₀ [] w₀
  | call {l w} (op : Op) (fs : List Fate) : Run w₀ l w →
      Run w₀ (l ++ [LegacyQueue.call op w fs]) (LegacyQueue.call op w fs).after
  | append {l w} (data : List UInt8) : Run w₀ l w → Run w₀ l (w.append data)
  | reset {l w} : Run w₀ l w → Run w₀ l w.reset

/-- The bytes of a token. -/
structure Extent where
  start : Nat
  stop : Nat
deriving DecidableEq

/-- The bytes that an operation is to settle. -/
def Op.extent : Op → Option Extent
  | lqSettle token | lqSettleEvidence token =>
    if token.checkpointEvidence then none else some ⟨token.offset.toNat, token.endOffset.toNat⟩
  | _                                       => none

/-- The extents whose settlement was committed since the cursor was last set to the start. -/
def committed (l : List Event) : List Extent :=
  l.foldl (fun extents e =>
    if e.after.stored = e.before.stored then extents
    else e.op.extent.elim [] fun x => extents ++ [x]) []

/-- The extents whose settlement reported success since then. -/
def settled (l : List Event) : List Extent :=
  l.foldl (fun extents e =>
    match e.op.extent with
    | some x => if e.result = some .ok then extents ++ [x] else extents
    | none   => if e.after.stored = e.before.stored then extents else []) []

/-- The position of the stored cursor. A damaged checkpoint has none. -/
def cursor (w : World) : Nat := (w.stored.filter (·.Valid)).elim 0 (·.offset.toNat)

/-! ### One operation -/

variable {w w' w₀ : World} {op : Op} {fs : List Fate} {l : List Event}

/-- What an operation does to the file and the checkpoint. -/
def Effect : Op → World → World → Prop
  | .lqSettle token, w, w'         => if token.checkpointEvidence then Same w w' else Settles token false w w'
  | .lqSettleEvidence token, w, w' => if token.checkpointEvidence then Restarts w w' else Settles token true w w'
  | .lqReclaim, w, w'              => Reclaims w w'
  | _, w, w'                       => Same w w'

/-- What holds after an operation. -/
def Post (op : Op) (w : World) (r : Result) (w' : World) : Prop :=
  Effect op w w' ∧ Bound w' ∧ (op.extent ≠ none → r = .ok → w'.stored ≠ w.stored)

lemma wp_prog (h : Bound w) (op : Op) : op.prog.wp (Post op w) (Effect op w) w := by
  cases op with
  | lqOpen => exact wp_mono (wp_lqOpen w) (fun _ _ hp => ⟨hp.1, hp.2, nofun⟩) fun _ hsame => hsame
  | lqOpenStep => exact wp_mono (wp_lqOpenStep h) (fun _ _ hp => ⟨hp.1, hp.2, nofun⟩) fun _ hsame => hsame
  | lqPeek capacity =>
    rw [Op.prog, resultOnly, wp_bind]
    exact wp_mono (wp_lqPeek h capacity) (fun _ _ hp => ⟨hp.1, hp.2, nofun⟩) fun _ hsame => hsame
  | lqCheckpointEvidence capacity =>
    rw [Op.prog, resultOnly, wp_bind]
    exact wp_mono (wp_lqCheckpointEvidence h capacity) (fun _ _ hp => ⟨hp.1, hp.2, nofun⟩)
      fun _ hsame => hsame
  | lqSettle token =>
    rw [Op.prog, LegacyQueue.lqSettle, settle]
    cases hcp : token.checkpointEvidence with
    | true => exact ⟨by simp [Effect, hcp, Same.refl], h, fun hextent => absurd (by simp [Op.extent, hcp]) hextent⟩
    | false =>
      have heffect : ∀ w', Settles token false w w' → Effect (.lqSettle token) w w' :=
        fun w' hs => by simpa [Effect, hcp] using hs
      exact wp_mono (wp_settleBytes h token false) (fun _ _ hp => ⟨heffect _ hp.1, hp.2.1, fun _ => hp.2.2⟩)
        heffect
  | lqSettleEvidence token =>
    rw [Op.prog, LegacyQueue.lqSettleEvidence, settle]
    cases hcp : token.checkpointEvidence with
    | true =>
      have heffect : ∀ w', Restarts w w' → Effect (.lqSettleEvidence token) w w' :=
        fun w' hr => by simpa [Effect, hcp] using hr
      exact wp_mono (wp_settleCheckpoint h token) (fun _ _ hp => ⟨heffect _ hp.1, hp.2.1, fun _ => hp.2.2⟩)
        heffect
    | false =>
      have heffect : ∀ w', Settles token true w w' → Effect (.lqSettleEvidence token) w w' :=
        fun w' hs => by simpa [Effect, hcp] using hs
      exact wp_mono (wp_settleBytes h token true) (fun _ _ hp => ⟨heffect _ hp.1, hp.2.1, fun _ => hp.2.2⟩)
        heffect
  | lqReclaim => exact wp_mono (wp_lqReclaim h) (fun _ _ hp => ⟨hp.1, hp.2, nofun⟩) fun _ hreclaims => hreclaims

/-- The effect does not depend on the queue in memory. -/
lemma Effect.reset (h : Effect op w w') : Effect op w w'.reset := by
  have hsettles : ∀ {token custody}, Settles token custody w w' → Settles token custody w w'.reset := by
    rintro token custody ⟨hfile, hstored | ⟨hready, hoffset, hlt, hgeneration, hstored⟩⟩
    · exact ⟨hfile, .inl hstored⟩
    · exact ⟨hfile, .inr ⟨hready, hoffset, hlt, hgeneration, hstored⟩⟩
  cases op with
  | lqSettle token =>
    simp only [Effect] at h ⊢
    split_ifs at h ⊢
    · exact h
    · exact hsettles h
  | lqSettleEvidence token =>
    simp only [Effect] at h ⊢
    split_ifs at h ⊢
    · exact h
    · exact hsettles h
  | lqReclaim =>
    rcases h with h | ⟨hready, hgeneration, hlength, hstored, hfile⟩
    · exact .inl h
    · exact .inr ⟨hready, hgeneration, hlength, hstored, hfile⟩
  | _ => exact h

lemma call_spec (h : Bound w) (op : Op) (fs : List Fate) :
    Effect op w (call op w fs).after ∧ Bound (call op w fs).after ∧
      (op.extent ≠ none → (call op w fs).result = some .ok → (call op w fs).after.stored ≠ w.stored) := by
  have hsat := wp_run (wp_prog h op) fs
  rw [call]
  cases hrun : op.prog.run w fs with
  | done r w' rest =>
    rw [hrun] at hsat
    obtain ⟨heffect, hbound, hok⟩ := hsat
    exact ⟨heffect, hbound, fun hextent hr => hok hextent (Option.some.inj hr)⟩
  | halt w' =>
    rw [hrun] at hsat
    exact ⟨Effect.reset hsat, bound_of_idle rfl rfl, nofun⟩

/-- The three things that can happen to the cursor. -/
inductive Change (op : Op) (w w' : World) : Prop where
  | kept (hsame : Same w w')
  | moved (token : Token) (custody : Bool)
      (hextent : op.extent = some ⟨token.offset.toNat, token.endOffset.toNat⟩) (hfile : w'.file = w.file)
      (hadvanced : Advanced token custody w w')
  | start (cp : Checkpoint) (hextent : op.extent = none) (hstored : w'.stored = some cp) (hvalid : cp.Valid)
      (hoffset : cp.offset = 0) (hcrc : cp.prefixCrc = 0) (hversion : cp.version ≠ 2)

lemma Effect.change (h : Effect op w w') : Change op w w' := by
  have hsettles : ∀ {token custody}, Settles token custody w w' → op.extent =
      some ⟨token.offset.toNat, token.endOffset.toNat⟩ → Change op w w' := by
    rintro token custody ⟨hfile, hstored | hadvanced⟩ hextent
    · exact .kept ⟨hfile, hstored⟩
    · exact .moved token custody hextent hfile hadvanced
  cases op with
  | lqSettle token =>
    simp only [Effect] at h
    split_ifs at h with hcp
    · exact .kept h
    · exact hsettles h (by simp [Op.extent, hcp])
  | lqSettleEvidence token =>
    simp only [Effect] at h
    split_ifs at h with hcp
    · obtain ⟨hfile, hstored | ⟨hmax, hstored⟩⟩ := h
      · exact .kept ⟨hfile, hstored⟩
      · exact .start _ (by simp [Op.extent, hcp]) hstored (restarted_valid hmax) rfl rfl
          (by rw [restarted_version]; decide)
    · exact hsettles h (by simp [Op.extent, hcp])
  | lqReclaim =>
    rcases h with h | hcleared
    · exact .kept h
    · exact .start _ rfl hcleared.stored (cleared_valid hcleared.generation) rfl rfl
        (by rw [cleared_version]; decide)
  | _ => exact .kept h

/-! ### Checkpoints that describe the file -/

/-- The checkpoint was committed for the bytes before its cursor. -/
structure Honest (content : List UInt8) (cp : Checkpoint) : Prop where
  le : cp.offset.toNat ≤ content.length
  crc : cp.prefixCrc = extend 0 (content.take cp.offset.toNat)
  version : cp.version = 2 ↔ ¬Boundary content cp.offset.toNat

lemma boundary_append {content : List UInt8} {n : Nat} (h : n ≤ content.length) (data : List UInt8) :
    Boundary (content ++ data) n ↔ Boundary content n := by
  rw [Boundary, Boundary, List.take_append_of_le_length h]

/-- Appending does not change the bytes before the cursor. -/
lemma Honest.append {content : List UInt8} {cp : Checkpoint} (h : Honest content cp) (data : List UInt8) :
    Honest (content ++ data) cp where
  le := by
    rw [List.length_append]
    exact Nat.le_add_right_of_le h.le
  crc := by rw [List.take_append_of_le_length h.le, h.crc]
  version := by rw [boundary_append h.le, h.version]

/-- A cursor at the start. -/
lemma honest_start {content : List UInt8} {cp : Checkpoint} (hoffset : cp.offset = 0)
    (hcrc : cp.prefixCrc = 0) (hversion : cp.version ≠ 2) : Honest content cp where
  le := by simp [hoffset]
  crc := by simp [hoffset, hcrc, extend]
  version := by simp [hoffset, hversion, Boundary]

/-- A settlement carries the checksum on. -/
lemma honest_advanced {content : List UInt8} {cp : Checkpoint} {token : Token} (h : Honest content cp)
    (hoffset : token.offset = cp.offset) (hlt : token.offset.toNat < token.endOffset.toNat)
    (hlen : token.endOffset.toNat ≤ content.length) : Honest content (advanced cp token content) := by
  have hsum : token.endOffset.toNat = token.offset.toNat + (token.endOffset.toNat - token.offset.toNat) := by
    omega
  have hne : slice content token.offset.toNat (token.endOffset.toNat - token.offset.toNat) ≠ [] := by
    intro hnil
    have := length_slice content token.offset.toNat (token.endOffset.toNat - token.offset.toNat)
    rw [hnil, List.length_nil] at this
    omega
  refine ⟨hlen, ?_, ?_⟩
  · change extend cp.prefixCrc _ = extend 0 (content.take token.endOffset.toNat)
    rw [h.crc, extend_append, ← hoffset, ← take_add_slice, ← hsum]
  · rw [advanced_version]
    change _ ↔ ¬Boundary content token.endOffset.toNat
    rw [Boundary, hsum, getLastD_take_add hne _ 0, ← hsum]
    split_ifs with hlast
    · exact iff_of_false (by decide) (not_not.2 hlast)
    · exact iff_of_true rfl hlast

/-- An honest checkpoint opens. -/
lemma Honest.open {content : List UInt8} {cp : Checkpoint} (h : Honest content cp) :
    openVerdict cp content = .ok := by
  have hboundary : ¬(cp.version = 1 ∧ ¬Boundary content cp.offset.toNat) := by
    rintro ⟨hone, hmid⟩
    rw [← h.version, hone] at hmid
    exact absurd hmid (by decide)
  rw [openVerdict, if_neg h.le.not_gt, if_neg hboundary, if_neg (not_not.2 h.crc.symm)]

/-! ### Runs -/

/-- What holds in every run. -/
structure Inv (w₀ : World) (l : List Event) (w : World) : Prop where
  bound : Bound w
  honest : ∀ cp ∈ w.stored, cp.Valid → Honest (w.file.getD []) cp
  written : w.stored = w₀.stored ∨ ∀ cp ∈ w.stored, cp.Valid
  tiles : Tiles Extent.start Extent.stop 0 (committed l) (cursor w)
  sublist : (settled l).Sublist (committed l)

/-- No checkpoint, or a damaged one. -/
structure Fresh (w : World) : Prop where
  queue : w.q = {}
  stored : ∀ cp ∈ w.stored, ¬cp.Valid

lemma Fresh.inv (h : Fresh w) : Inv w [] w where
  bound := bound_of_idle (by rw [h.queue]) (by rw [h.queue])
  honest cp hcp hvalid := absurd hvalid (h.stored cp hcp)
  written := .inl rfl
  tiles := by
    cases hstored : w.stored with
    | none => simp [cursor, hstored, committed, Tiles]
    | some cp => simp [cursor, hstored, committed, Tiles, Option.filter, h.stored cp hstored]
  sublist := List.Sublist.slnil

lemma Inv.reset (h : Inv w₀ l w) : Inv w₀ l w.reset :=
  ⟨bound_of_idle rfl rfl, h.honest, h.written, h.tiles, h.sublist⟩

lemma Inv.append (h : Inv w₀ l w) (data : List UInt8) : Inv w₀ l (w.append data) :=
  ⟨⟨h.bound.loaded, h.bound.settled⟩, fun cp hcp hvalid => (h.honest cp hcp hvalid).append data, h.written,
    h.tiles, h.sublist⟩

lemma committed_concat (l : List Event) (e : Event) : committed (l ++ [e]) =
    if e.after.stored = e.before.stored then committed l
    else e.op.extent.elim [] fun x => committed l ++ [x] := by
  rw [committed, List.foldl_append]
  rfl

lemma settled_concat (l : List Event) (e : Event) : settled (l ++ [e]) =
    match e.op.extent with
    | some x => if e.result = some .ok then settled l ++ [x] else settled l
    | none   => if e.after.stored = e.before.stored then settled l else [] := by
  rw [settled, List.foldl_append]
  rfl

/-- What a settlement reports as done is committed. -/
lemma settled_sublist_concat {e : Event} (h : (settled l).Sublist (committed l))
    (hok : e.op.extent ≠ none → e.result = some .ok → e.after.stored ≠ e.before.stored) :
    (settled (l ++ [e])).Sublist (committed (l ++ [e])) := by
  rw [settled_concat, committed_concat]
  cases hextent : e.op.extent with
  | none =>
    dsimp only
    split_ifs
    · exact h
    · exact List.Sublist.slnil
  | some x =>
    dsimp only
    by_cases hstored : e.after.stored = e.before.stored
    · rw [if_pos hstored, if_neg fun hr => hok (by simp [hextent]) hr hstored]
      exact h
    · rw [if_neg hstored]
      split_ifs
      · exact h.append (List.Sublist.refl _)
      · exact h.trans (List.sublist_append_left _ _)

/-- The checkpoint that a queue in use has loaded. -/
lemma Inv.loaded (h : Inv w₀ l w) (hready : w.q.ready = true) :
    Honest (w.file.getD []) w.q.checkpoint ∧ cursor w = w.q.checkpoint.offset.toNat := by
  obtain ⟨hcp, hvalid⟩ := h.bound.loaded (.inl hready)
  cases hstored : w.stored with
  | none =>
    rw [hstored] at hcp
    rw [hcp, cursor, hstored]
    exact ⟨honest_start rfl rfl (by decide), rfl⟩
  | some cp =>
    obtain rfl : w.q.checkpoint = cp := by rw [hcp, hstored, Option.getD_some]
    refine ⟨h.honest _ hstored (hvalid _ hstored), ?_⟩
    rw [cursor, hstored]
    simp [Option.filter, hvalid _ hstored]

lemma cursor_of_valid {cp : Checkpoint} (hstored : w.stored = some cp) (hvalid : cp.Valid) :
    cursor w = cp.offset.toNat := by
  rw [cursor, hstored]
  simp [Option.filter, hvalid]

/-- One call keeps the invariant. -/
lemma Inv.call (h : Inv w₀ l w) (op : Op) (fs : List Fate) :
    Inv w₀ (l ++ [LegacyQueue.call op w fs]) (LegacyQueue.call op w fs).after := by
  obtain ⟨heffect, hbound, hok⟩ := call_spec h.bound op fs
  have hop : (LegacyQueue.call op w fs).op = op := by
    rw [LegacyQueue.call]
    split <;> rfl
  have hbefore : (LegacyQueue.call op w fs).before = w := by
    rw [LegacyQueue.call]
    split <;> rfl
  generalize LegacyQueue.call op w fs = e at *
  have hsublist := settled_sublist_concat (e := e) h.sublist (by rwa [hop, hbefore])
  have hcommitted := committed_concat l e
  rw [hop, hbefore] at hcommitted
  cases heffect.change with
  | kept hsame =>
    rw [if_pos hsame.2] at hcommitted
    refine ⟨hbound, ?_, ?_, ?_, hsublist⟩
    · rw [hsame.1, hsame.2]
      exact h.honest
    · rw [hsame.2]
      exact h.written
    · rw [hcommitted, cursor, hsame.2]
      exact h.tiles
  | moved token custody hextent hfile hadvanced =>
    obtain ⟨content, hcontent, hlen, hstored, -⟩ := hadvanced.stored
    obtain ⟨hhonest, hcursor⟩ := h.loaded hadvanced.ready
    have hvalid : (advanced w.q.checkpoint token content).Valid := advanced_valid hadvanced.generation
    have hne : e.after.stored ≠ w.stored := by
      rw [hstored]
      exact persisted_ne_stored ((h.bound.loaded (.inl hadvanced.ready)).1 ▸ rfl)
    rw [if_neg hne, hextent] at hcommitted
    refine ⟨hbound, ?_, .inr ?_, ?_, hsublist⟩
    · rintro cp hcp -
      rw [hstored] at hcp
      obtain rfl := Option.some.inj hcp
      rw [hfile, hcontent]
      rw [hcontent] at hhonest
      exact honest_advanced hhonest hadvanced.offset hadvanced.lt hlen
    · rw [hstored]
      rintro cp ⟨⟩
      exact hvalid
    · rw [hcommitted, cursor_of_valid hstored hvalid]
      refine Tiles.concat h.tiles (x := ⟨token.offset.toNat, token.endOffset.toNat⟩) ?_ ?_
      · rw [hcursor, hadvanced.offset]
      · rw [hcursor, ← hadvanced.offset]
        exact hadvanced.lt
  | start cp hextent hstored hvalid hoffset hcrc hversion =>
    refine ⟨hbound, ?_, .inr ?_, ?_, hsublist⟩
    · rintro cp' hcp' -
      rw [hstored] at hcp'
      obtain rfl := Option.some.inj hcp'
      exact honest_start hoffset hcrc hversion
    · rw [hstored]
      rintro cp' ⟨⟩
      exact hvalid
    · rw [hcommitted]
      split_ifs with hsame
      · rw [cursor, hsame]
        exact h.tiles
      · rw [hextent, cursor_of_valid hstored hvalid, hoffset]
        rfl

/-- Every run keeps the invariant. -/
lemma Run.inv (h₀ : Fresh w₀) (h : Run w₀ l w) : Inv w₀ l w := by
  induction h with
  | nil => exact h₀.inv
  | call op fs _ ih => exact ih.call op fs
  | append data _ ih => exact ih.append data
  | reset _ ih => exact ih.reset

/-- A plain settlement goes from a row to a row. -/
lemma Inv.settle_boundary (h : Inv w₀ l w) {token : Token} {fs : List Fate}
    (hne : (LegacyQueue.call (.lqSettle token) w fs).after.stored ≠ w.stored) :
    token.offset.toNat = cursor w ∧
      token.endOffset.toNat = cursor (LegacyQueue.call (.lqSettle token) w fs).after ∧
      Boundary (w.file.getD []) token.offset.toNat ∧ Boundary (w.file.getD []) token.endOffset.toNat := by
  obtain ⟨heffect, -, -⟩ := call_spec h.bound (.lqSettle token) fs
  simp only [Effect] at heffect
  split_ifs at heffect with hcp
  · exact absurd heffect.2 hne
  obtain ⟨-, hstored | hadvanced⟩ := heffect
  · exact absurd hstored hne
  obtain ⟨content, hcontent, hlen, hstored, hplain⟩ := hadvanced.stored
  obtain ⟨hhonest, hcursor⟩ := h.loaded hadvanced.ready
  obtain ⟨hversion, hlast⟩ := hplain rfl
  have hhonest' : Honest content (advanced w.q.checkpoint token content) := by
    rw [hcontent] at hhonest
    exact honest_advanced hhonest hadvanced.offset hadvanced.lt hlen
  refine ⟨by rw [hcursor, hadvanced.offset], ?_, ?_, ?_⟩
  · exact (cursor_of_valid hstored (advanced_valid hadvanced.generation)).symm
  · rw [hadvanced.offset]
    exact not_not.1 fun hmid => hversion (hhonest.version.2 hmid)
  · rw [hcontent]
    refine not_not.1 fun hmid => ?_
    have htwo := hhonest'.version.2 hmid
    rw [advanced_version, if_pos hlast] at htwo
    exact absurd htwo (by decide)

/-- A checkpoint that the queue has written opens again. -/
lemma Inv.reopen (h : Inv w₀ l w) {cp : Checkpoint} (hcp : w.stored = some cp)
    (hne : w.stored ≠ w₀.stored) (data : List UInt8) (q : Queue) :
    (LegacyQueue.lqOpen.eval ⟨w.file, w.stored, q⟩).1 = .ok ∧
      (LegacyQueue.lqOpen.eval ⟨(w.append data).file, w.stored, q⟩).1 = .ok := by
  have hvalid : cp.Valid := h.written.resolve_left hne cp hcp
  have hhonest := h.honest cp hcp hvalid
  have hresult : ∀ content, Honest content cp → openResult (some cp) (some content) = .ok := by
    intro content hcontent
    simp only [openResult, hcontent.open, hvalid, not_true_eq_false, if_false, ite_self]
  refine ⟨?_, ?_⟩
  · rw [eval_lqOpen, hcp]
    cases hfile : w.file with
    | some content => exact hresult content (by rwa [hfile] at hhonest)
    | none =>
      have hzero : cp.offset = 0 := by
        have hle := hhonest.le
        rw [hfile, Option.getD_none, List.length_nil, Nat.le_zero] at hle
        exact UInt32.toNat_inj.1 hle
      simp [openResult, hvalid, hzero]
  · rw [eval_lqOpen, hcp]
    exact hresult _ (hhonest.append data)

/-- A file is removed only when it is settled to its end. -/
lemma Inv.reclaim (h : Inv w₀ l w) {fs : List Fate} {content : List UInt8} (hfile : w.file = some content)
    (hnone : (LegacyQueue.call .lqReclaim w fs).after.file = none) : cursor w = content.length := by
  obtain ⟨heffect, -, -⟩ := call_spec h.bound .lqReclaim fs
  rcases heffect with hsame | hcleared
  · rw [hsame.1, hfile] at hnone
    cases hnone
  · obtain ⟨content', hcontent', hlength⟩ := hcleared.length
    obtain rfl := Option.some.inj (hfile.symm.trans hcontent')
    rw [(h.loaded hcleared.ready).2, hlength]

/-- In every run from an absent or a damaged checkpoint: the committed extents tile the file up to the
cursor, and every extent whose settlement reported success is one of them; the stored version is 2 exactly
when the cursor is inside a row; a plain settlement moves the cursor from a row to a row; a checkpoint that
the queue wrote opens again, whatever is appended; and a reclaim removes a file only if the extents cover
all of it. -/
theorem legacy_queue_keeps_unsettled (h₀ : Fresh w₀) (h : Run w₀ l w) :
    Tiles Extent.start Extent.stop 0 (committed l) (cursor w) ∧ (settled l).Sublist (committed l) ∧
    (∀ cp, w.stored = some cp → cp.Valid → (cp.version = 2 ↔ ¬Boundary (w.file.getD []) (cursor w))) ∧
    (∀ token fs, (call (.lqSettle token) w fs).after.stored ≠ w.stored →
      token.offset.toNat = cursor w ∧ token.endOffset.toNat = cursor (call (.lqSettle token) w fs).after ∧
      Boundary (w.file.getD []) token.offset.toNat ∧ Boundary (w.file.getD []) token.endOffset.toNat) ∧
    (∀ cp, w.stored = some cp → w.stored ≠ w₀.stored → ∀ data q,
      (lqOpen.eval ⟨w.file, w.stored, q⟩).1 = .ok ∧
      (lqOpen.eval ⟨(w.append data).file, w.stored, q⟩).1 = .ok) ∧
    (∀ fs content, w.file = some content → (call .lqReclaim w fs).after.file = none →
      Tiles Extent.start Extent.stop 0 (committed l) content.length) := by
  have hinv := h.inv h₀
  refine ⟨hinv.tiles, hinv.sublist, ?_, fun _ _ => hinv.settle_boundary, fun _ => hinv.reopen, ?_⟩
  · intro cp hcp hvalid
    rw [cursor_of_valid hcp hvalid]
    exact (hinv.honest cp hcp hvalid).version
  · intro fs content hfile hnone
    rw [← hinv.reclaim hfile hnone]
    exact hinv.tiles

/-! A commit may reach the storage and still be reported as failed. -/

/-- A file with one row. -/
def oneRow : World := ⟨some [65, 10], none, {}⟩

def oneRowToken : Token := ⟨0, 0, 2, ZoneLite.dqCrc32 [65, 10], false, false⟩

/-- Open the queue, and settle the row while the commit fails after it reached the storage. -/
def uncertain : List Event :=
  let opened := call .lqOpenStep oneRow []
  [opened, call (.lqSettle oneRowToken) opened.after [.ok, .ok, .ok, .ok, .ok, .fail 1]]

lemma run_uncertain : Run oneRow uncertain
    (call (.lqSettle oneRowToken) (call .lqOpenStep oneRow []).after [.ok, .ok, .ok, .ok, .ok, .fail 1]).after :=
  .call _ _ (.call _ _ .nil)

lemma fresh_oneRow : Fresh oneRow := ⟨rfl, nofun⟩

/-- The settlements that reported success need not cover the file up to the cursor. -/
theorem settled_not_tiles : ∃ w₀ l w, Fresh w₀ ∧ Run w₀ l w ∧
    ¬Tiles Extent.start Extent.stop 0 (settled l) (cursor w) := by
  refine ⟨oneRow, uncertain, _, fresh_oneRow, run_uncertain, ?_⟩
  have hnone : settled uncertain = [] := by decide +kernel
  have hcursor : cursor (call (.lqSettle oneRowToken) (call .lqOpenStep oneRow []).after
      [.ok, .ok, .ok, .ok, .ok, .fail 1]).after = 2 := by decide +kernel
  rw [hnone, hcursor]
  exact Nat.zero_ne_add_one 1

theorem legacy_queue_keeps_unsettled_one_row : Tiles Extent.start Extent.stop 0 (committed uncertain) (cursor
    (call (.lqSettle oneRowToken) (call .lqOpenStep oneRow []).after [.ok, .ok, .ok, .ok, .ok, .fail 1]).after) :=
  (legacy_queue_keeps_unsettled fresh_oneRow run_uncertain).1

end LegacyQueue
