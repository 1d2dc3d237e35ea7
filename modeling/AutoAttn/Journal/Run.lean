import Mathlib
import AutoAttn.Journal.Open

/-!
# Runs of the journal

The owner of the store makes its calls in any order, every operation of which may fail, and power
may be lost at any time. What was not synchronised is then replaced by anything, or, in runs in which
what was written stays, is there.
-/

namespace ZoneLite

open Bytes Crash Journal

/-- The calls of the storage owner. -/
inductive ZjCall where
  | openStore (metadata : ZjMetadata)
  | append (o : ZjObservation)
  | peek
  | settle (token : ZjToken) (receipt : Block 32)
  | reclaimStep

variable {π : Type} {P : ZjPort π}

/-- What a call runs. The result is the sequence number of an append. -/
def ZjCall.prog (P : ZjPort π) : ZjCall → ZjM π Nat
  | .openStore metadata   => do
    let some limit ← onPort P.boot | throw .io
    zjStoreOpen P metadata limit
    return 0
  | .append o             => zjStoreAppend P o
  | .peek                 => do
    let _ ← zjStorePeek P
    return 0
  | .settle token receipt => do
    zjStoreSettle P token receipt
    return 0
  | .reclaimStep          => do
    zjStoreReclaimStep
    return 0

/-- A run so far: the world, the records whose append succeeded, and the tokens whose settlement
reached storage, latest first. -/
structure ZjRun (π : Type) where
  world : ZjWorld π
  kept : List ZjSealed
  settled : List ZjToken

namespace ZjRun

/-- A call was made and left the world `w`. A successful append is the one of the record that was
sealed last. -/
def after (V : P.View) (r : ZjRun π) (c : ZjCall) (ok : Bool) (w : ZjWorld π) : ZjRun π where
  world := w
  kept := match c, ok with
    | .append _, true => w.nv.log.head?.toList ++ r.kept
    | _, _            => r.kept
  settled := match c with
    | .settle token _ => settledBy V token r.settled r.world w
    | _               => r.settled

/-- Power is lost and comes back. -/
def reset (P : ZjPort π) (junk : Nat → List UInt8) (r : ZjRun π) : ZjRun π where
  world := (r.world.reset junk ZjStore.zero).onNv fun n => { n with port := P.forget n.port }
  kept := r.kept
  settled := r.settled

/-- Nothing that was written is lost or changed. -/
def Intact (junk : Nat → List UInt8) (w : ZjWorld π) : Prop :=
  ∀ k f, w.disk.lookup k = some f → junk k = f.bytes.drop f.stable

inductive Step (V : P.View) (whole : Prop) (r : ZjRun π) : ZjRun π → Prop where
  | call (c : ZjCall) {fs rest : List Fate} {x : Except ZjError Nat} {w : ZjWorld π}
      (h : Prog.run (c.prog P).run r.world fs = .done x w rest) : Step V whole r (r.after V c x.isOk w)
  | crash (c : ZjCall) {fs : List Fate} {w : ZjWorld π} {junk : Nat → List UInt8}
      (h : Prog.run (c.prog P).run r.world fs = .halt w) (hjunk : whole → Intact junk w) :
      Step V whole r ((r.after V c false w).reset P junk)
  | reset {junk : Nat → List UInt8} (hjunk : whole → Intact junk r.world) :
      Step V whole r (r.reset P junk)

/-- A device on which the journal was never opened. -/
structure Blank (V : P.View) (w : ZjWorld π) : Prop where
  disk : ∀ k, w.disk.lookup k = none
  log : w.nv.log = []
  handed : w.nv.handed = []
  checkpoint : V.checkpoint w.nv.port = none
  unready : w.ram.ready = false

def Reach (V : P.View) (whole : Prop) (r : ZjRun π) : Prop :=
  ∃ w, Blank V w ∧ Relation.ReflTransGen (Step V whole) ⟨w, [], []⟩ r

/-! ### The invariant -/

variable {V : P.View} {whole : Prop} {r r' : ZjRun π}

/-- The invariant of a run. -/
def Good (V : P.View) (whole : Prop) (r : ZjRun π) : Prop :=
  Inv V whole r.kept r.settled r.world

lemma Blank.good {w : ZjWorld π} (h : Blank V w) : Good V whole ⟨w, [], []⟩ := by
  refine Safe.inv ⟨fun _ => [], ?_⟩ h.unready
  have hcursor : (stored V w).cursor = ⟨0, 0, 0, 0⟩ := by
    simp [Stored.cursor, stored, h.checkpoint]
  constructor
  case counted =>
    constructor
    · simp [stored, h.handed]
    · simp [stored, h.handed]
  case pointed => exact .inl (by rw [hcursor])
  case last => exact fun _ => .inl (by rw [hcursor])
  all_goals simp [stored, h.disk, h.log, InOrder]

lemma wp_call (h : Good V whole r) (c : ZjCall) :
    Prog.ewp (fun _ w => Good V whole (r.after V c true w))
      (fun _ w => Good V whole (r.after V c false w))
      (fun w => Safe V whole (r.after V c false w).kept (r.after V c false w).settled w)
      (c.prog P) r.world := by
  cases c with
  | openStore metadata =>
    have hsame : ∀ t, V.checkpoint t = V.checkpoint r.world.nv.port ∧
        V.limit t = V.limit r.world.nv.port →
        Good V whole { r with world := portPart.set t r.world } := by
      rintro t ⟨hc, hl⟩
      exact Inv.same h ⟨by rw [stored_set, hc, hl]; rfl, rfl⟩
    rw [ZjCall.prog, Prog.ewp_bind, wp_onPort]
    refine Prog.wp_mono (V.boot_spec r.world.nv.port) ?_ fun t ht => (hsame t ht).safe
    rintro limit t ⟨ht, hn⟩
    cases limit with
    | none =>
      rw [Prog.ewp_throw]
      exact hsame t ht
    | some n =>
      obtain rfl : n = V.limit (portPart.set t r.world).nv.port := (hn n rfl).trans ht.2.symm
      rw [Prog.ewp_bind]
      refine Prog.ewp_mono (wp_open_inv (hsame t ht).safe metadata) ?_ (fun _ _ h => h) fun _ h => h
      intro _ w hw
      rw [Prog.ewp_pure]
      exact hw
  | append o =>
    refine Prog.ewp_mono (wp_append_inv h o) ?_ (fun _ _ h => h) fun _ h => h
    rintro n w ⟨e, log, ⟨hlog, -⟩, hinv⟩
    rw [Good, after, hlog]
    exact hinv
  | peek =>
    rw [ZjCall.prog, Prog.ewp_bind]
    refine Prog.ewp_mono (wp_peek_inv h) ?_ (fun _ _ h => h) fun _ h => h
    intro item w hw
    rw [Prog.ewp_pure]
    exact hw
  | settle token receipt =>
    rw [ZjCall.prog, Prog.ewp_bind]
    refine Prog.ewp_mono (wp_settle_inv h token receipt) ?_ (fun _ _ h => h) fun _ h => h
    intro _ w hw
    rw [Prog.ewp_pure]
    exact hw
  | reclaimStep =>
    rw [ZjCall.prog, Prog.ewp_bind]
    refine Prog.ewp_mono (wp_reclaim_inv h) ?_ (fun _ _ h => h) fun _ h => h
    intro _ w hw
    rw [Prog.ewp_pure]
    exact hw

/-- A loss of power leaves what the instant before it had on storage. -/
lemma good_reset (h : Safe V whole r.kept r.settled r.world) {junk : Nat → List UInt8}
    (hjunk : whole → Intact junk r.world) : Good V whole (r.reset P junk) := by
  obtain ⟨recs, hs⟩ := h
  obtain ⟨recs', hs'⟩ := hs.reset junk hjunk
  obtain ⟨hc, hl⟩ := V.forget_spec r.world.nv.port
  refine Safe.inv ⟨recs', ?_⟩ rfl
  have hstored : stored V (r.reset P junk).world =
      { stored V r.world with disk := (stored V r.world).disk.reboot junk } := by
    simp [stored, ZjRun.reset, World.reset, hc, hl]
  rw [hstored]
  exact hs'

lemma Step.good (hstep : Step V whole r r') (h : Good V whole r) : Good V whole r' := by
  cases hstep with
  | @call c fs _ x _ hrun =>
    have hsat := Prog.ewp_run (wp_call h c) fs
    rw [hrun] at hsat
    cases x with
    | ok n => exact hsat
    | error e => exact hsat
  | @crash c fs _ _ hrun hjunk =>
    have hsat := Prog.ewp_run (wp_call h c) fs
    rw [hrun] at hsat
    exact good_reset hsat hjunk
  | reset hjunk => exact good_reset h.safe hjunk

lemma Reach.good (h : Reach V whole r) : Good V whole r := by
  obtain ⟨w, hw, hsteps⟩ := h
  induction hsteps with
  | refl => exact hw.good
  | tail _ hstep ih => exact hstep.good ih

/-! ### No record is lost -/

/-- Every byte of the record is in the extent of a settled token. -/
def Retired (settled : List ZjToken) (e : ZjSealed) : Prop :=
  ∀ p, e.offset ≤ p → p < e.stop → Covered settled e.segment p

/-- The record is on storage for sure, byte for byte, in a segment that is retained. -/
def Retained (w : ZjWorld π) (e : ZjSealed) : Prop :=
  ∃ f, w.disk.lookup e.segment = some f ∧ slice f.bytes e.offset e.record.length = e.record ∧
    e.stop ≤ f.stable

section Kept

variable {recs : Nat → List ZjSealed} {kept : List ZjSealed} {settled : List ZjToken}
  {w : ZjWorld π} {e : ZjSealed}
  (h : Sound P.crypto whole kept settled recs (stored V w)) (he : e ∈ kept)
include h he

/-- A record whose append succeeded is there, unless it is retired. -/
lemma retained_or_retired :
    (e ∈ recs e.segment ∧ Retained w e) ∨ w.disk.lookup e.segment = none ∧ Retired settled e := by
  cases hf : w.disk.lookup e.segment with
  | none => exact .inr ⟨rfl, fun p hlo hhi => h.covered e he p hlo hhi (.inl hf)⟩
  | some f =>
    obtain ⟨hmem, hstable⟩ := h.kept_stable e he f hf
    obtain ⟨f', header, tail, hf', hholds, -⟩ := h.holds hmem
    obtain rfl : f' = f := Option.some.inj (hf'.symm.trans hf)
    exact .inl ⟨hmem, f', hf, hholds.slice_record hmem, hstable⟩

/-- The cursor is not inside a record that was sealed. -/
lemma retired_of_before (hi : P.crypto.Ideal) (hmem : e ∈ recs e.segment)
    (hb : Before (stored V w).cursor e.segment e.offset) : Retired settled e := by
  intro p hlo hhi
  refine h.covered e he p hlo hhi (.inr ?_)
  rcases hb with hlt | ⟨heq, hlt⟩
  · exact .inl hlt
  · rw [heq] at hmem
    rcases h.aligned hi e hmem with hle | hle
    · omega
    · exact .inr ⟨heq, hhi.trans_le hle⟩

end Kept

/-- A record whose append succeeded stays on storage, byte for byte, until the extents of
settlements that reached storage cover it: its bytes are settled or not before the cursor, and, if
the cipher is ideal, this holds of the record as a whole. No segment goes before that. -/
theorem zjStore_loses_no_record (h : Reach V False r) :
    (∀ o fs n w rest, Prog.run ((ZjCall.append o).prog P).run r.world fs = .done (.ok n) w rest →
      ∃ e, (r.after V (.append o) true w).kept = e :: r.kept ∧
        e.observation = { o with sequence := n } ∧
        zjRecordEncode P.crypto e.metadata e.observation zjRecordMax = .ok e.record) ∧
    ∀ e ∈ r.kept,
      (∀ p, e.offset ≤ p → p < e.stop → Covered r.settled e.segment p ∨
        ¬Before (stored V r.world).cursor e.segment p ∧ Retained r.world e) ∧
      (P.crypto.Ideal → Retired r.settled e ∨
        ¬Before (stored V r.world).cursor e.segment e.offset ∧ Retained r.world e) ∧
      (r.world.disk.lookup e.segment = none → Retired r.settled e) := by
  obtain ⟨recs, hs, -⟩ := h.good
  refine ⟨fun o fs n w rest hrun => ?_, fun e he => ⟨fun p hlo hhi => ?_, fun hi => ?_, fun hnone => ?_⟩⟩
  · have hsat := Prog.ewp_run (wp_append_inv h.good o) fs
    rw [ZjCall.prog] at hrun
    rw [hrun] at hsat
    obtain ⟨e, log, ⟨hlog, hobs⟩, recs', hs', -⟩ := hsat
    refine ⟨e, by simp [after, hlog], hobs, (hs'.genuine e (hs'.kept_log e ?_)).encoded⟩
    exact List.mem_cons_self
  · rcases retained_or_retired hs he with ⟨-, hr⟩ | ⟨-, hr⟩
    · by_cases hb : Before (stored V r.world).cursor e.segment p
      · exact .inl (hs.covered e he p hlo hhi (.inr hb))
      · exact .inr ⟨hb, hr⟩
    · exact .inl (hr p hlo hhi)
  · rcases retained_or_retired hs he with ⟨hmem, hr⟩ | ⟨-, hr⟩
    · by_cases hb : Before (stored V r.world).cursor e.segment e.offset
      · exact .inl (retired_of_before hs he hi hmem hb)
      · exact .inr ⟨hb, hr⟩
    · exact .inl hr
  · exact fun p hlo hhi => hs.covered e he p hlo hhi (.inl hnone)

end ZjRun

/-! ### A run -/

/-- A cipher that opens what is in the log. -/
def logCrypto : ZjCrypto :=
  { plainCrypto with
    openBytes := fun log m n a c t =>
      (log.find? fun e => e.metadata = m ∧ n = nonceFor e.observation.sequence ∧
        a = m ++ recordHeader e.observation ∧ e.record = recordHeader e.observation ++ c ++ t ∧
        c.length = (recordPlain e.observation).length).map fun e => recordPlain e.observation
    length_openBytes := fun h => by
      obtain ⟨e, he, rfl⟩ := Option.map_eq_some_iff.1 h
      have := List.find?_some he
      simp only [decide_eq_true_eq] at this
      exact this.2.2.2.2.symm }

lemma ideal_logCrypto : logCrypto.Ideal where
  sound h := by
    obtain ⟨e, he, rfl⟩ := Option.map_eq_some_iff.1 h
    have := List.find?_some he
    simp only [decide_eq_true_eq] at this
    obtain ⟨hm, hn, ha, hr, -⟩ := this
    exact ⟨e, List.mem_of_find?_eq_some he, hm, hn, ha, hr, rfl⟩
  complete he hr hlen := by
    rw [logCrypto, Option.isSome_map, List.find?_isSome]
    exact ⟨_, he, decide_eq_true ⟨rfl, rfl, rfl, hr, hlen⟩⟩

/-- A device with nothing on it. -/
def blankWorld : ZjWorld PlainStorage := ⟨∅, ⟨⟨none, 1⟩, [], []⟩, ZjStore.zero⟩

def sampleObservation : ZjObservation where
  sequence := 0
  rawFormat := .sourceRecord
  timeQuality := .verified
  encodedTime := 0
  capturedAtSeconds := 0
  capturedUptimeMs := 0
  sourceEpoch := Block.zero 16
  sourceOrdinal := 0xffffffff
  identityRevision := 0
  raw := [1]

namespace ZjRun

/-- A call in which nothing goes wrong. -/
def evalCall (V : P.View) (r : ZjRun π) (c : ZjCall) : ZjRun π :=
  let x := Prog.eval (c.prog P).run r.world
  r.after V c x.1.isOk x.2

lemma Reach.evalCall {V : P.View} {whole : Prop} {r : ZjRun π} (h : Reach V whole r) (c : ZjCall) :
    Reach V whole (r.evalCall V c) := by
  obtain ⟨w, hw, hsteps⟩ := h
  exact ⟨w, hw, hsteps.tail (.call c (Prog.run_nil _ _))⟩

/-- The store is opened and one observation is appended. -/
def sampleRun : ZjRun PlainStorage :=
  [ZjCall.openStore Journal.sampleMetadata, .append sampleObservation].foldl
    (evalCall (plainView logCrypto)) ⟨blankWorld, [], []⟩

lemma reach_sampleRun : Reach (plainView logCrypto) False sampleRun := by
  have hblank : Blank (plainView logCrypto) blankWorld := ⟨fun _ => rfl, rfl, rfl, rfl, rfl⟩
  have hstart : Reach (plainView logCrypto) False ⟨blankWorld, [], []⟩ := ⟨_, hblank, .refl⟩
  exact (hstart.evalCall _).evalCall _

theorem zjStore_loses_no_record_appended :
    sampleRun.kept.length = 1 ∧ ∀ e ∈ sampleRun.kept, Retired sampleRun.settled e ∨
      ¬Before (stored (plainView logCrypto) sampleRun.world).cursor e.segment e.offset ∧
        Retained sampleRun.world e :=
  ⟨by decide +kernel, fun e he =>
    ((zjStore_loses_no_record reach_sampleRun).2 e he).2.1 ideal_logCrypto⟩

end ZjRun

end ZoneLite
