import AutoAttn.Journal.Blind
import AutoAttn.Journal.StateRun

/-!
# Sequence numbers are never reused

The store draws its numbers below a limit that is in the root. The limit is raised there, and read
back, before the first number of a range is handed out, and a number that was not handed out when
power was lost never is.
-/

namespace ZoneLite

open Bytes Crash Journal

/-! ### The store over the root -/

/-- The limit in NVS. Nothing was handed out before there was a root. -/
def ZjNvs.limit (n : ZjNvs) : Nat :=
  match n.root with
  | none   => 1
  | some b => unle (slice b 8 8)

/-- The checkpoint in NVS. -/
def ZjNvs.checkpoint (n : ZjNvs) : Option (Block zjCheckpointBytes) :=
  n.retirement.bind fun b => if b.length = zjCheckpointBytes then some (.ofList _ b) else none

/-- The port of the storage owner: the root's state is opened for each opening of the store. -/
def statePort (serial : List UInt8) (random : Option (Block 48)) (crypto : ZjCrypto) :
    ZjPort ZjDevice where
  boot := do
    match ← (zjStateOpen serial random).run with
    | .ok _    => return some (← getState).limit
    | .error _ => return none
  load := zjStateCheckpointLoad
  commit := zjStateCheckpointCommit
  reserve := zjStateReserve
  admits _ := do
    if ← Prog.look then return .granted
    else if ← Prog.look then return .full
    else return .io
  forget := ZjDevice.reset
  crypto := crypto

namespace Journal

section View

variable {serial : List UInt8} {random : Option (Block 48)} {crypto : ZjCrypto} {d d' : ZjDevice}

/-- Nothing that the store can see in NVS is different. -/
def SameView (d d' : ZjDevice) : Prop :=
  d'.nvs.checkpoint = d.nvs.checkpoint ∧ d'.nvs.limit = d.nvs.limit

lemma SameView.of_nvs (h : d'.nvs = d.nvs) : SameView d d' := by
  rw [SameView, h]
  exact ⟨rfl, rfl⟩

lemma FirstRoot.sameView (h : FirstRoot serial d.nvs d'.nvs) : SameView d d' := by
  cases h with
  | same h => exact .of_nvs h
  | made b hroot _ _ _ _ hlimit h =>
    rw [SameView, h]
    refine ⟨rfl, ?_⟩
    rw [ZjNvs.limit, ZjNvs.limit, hroot]
    exact hlimit

lemma limit_of_root {b : Block zjRootBytes} (h : d.nvs.root = some b.val) :
    d.nvs.limit = rootLimit b := by
  rw [ZjNvs.limit, h]
  rfl

lemma checkpoint_written (cp : Block zjCheckpointBytes) (d : ZjDevice) :
    (written .retirement cp.val d).nvs.checkpoint = some cp := by
  simp [written, ZjNvs.set, ZjNvs.checkpoint]

lemma wp_stateBoot (d : ZjDevice) : (statePort serial random crypto).boot.wp
    (fun r d' => SameView d d' ∧ ∀ n, r = some n → n = d.nvs.limit) (SameView d) d := by
  refine Prog.wp_seq (Prog.wp_of_ewp (ewp_zjStateOpen d serial random)) ?_ fun _ h => h.sameView
  intro x d' hx
  cases x with
  | ok =>
    obtain ⟨hd, hfirst⟩ := hx
    refine ⟨hfirst.sameView, fun n hn => ?_⟩
    rw [← hfirst.sameView.2, limit_of_root hd.root, ← hd.limit]
    exact (Option.some.inj hn).symm
  | error => exact ⟨hx.2.sameView, by simp⟩

lemma wp_stateCommit (cp : Block zjCheckpointBytes) (d : ZjDevice) : (zjStateCheckpointCommit cp).wp
    (fun r d' => d'.nvs.limit = d.nvs.limit ∧ (d'.nvs.checkpoint = some cp ∨
      r = false ∧ d'.nvs.checkpoint = d.nvs.checkpoint))
    (fun d' => d'.nvs.limit = d.nvs.limit ∧ (d'.nvs.checkpoint = some cp ∨
      d'.nvs.checkpoint = d.nvs.checkpoint)) d := by
  have hnew := checkpoint_written cp d
  rw [zjStateCheckpointCommit, Prog.wp_bind, getState, Prog.wp_gets, Prog.wp_ite, Prog.wp_pure]
  refine ⟨fun _ => ⟨rfl, .inr ⟨rfl, rfl⟩⟩, fun _ => ?_⟩
  exact wp_save ⟨rfl, .inl hnew⟩ ⟨rfl, .inr ⟨rfl, rfl⟩⟩ ⟨rfl, .inl hnew⟩ ⟨rfl, .inr rfl⟩
    ⟨rfl, .inl hnew⟩

lemma wp_stateReserve (n : Nat) (d : ZjDevice) : (zjStateReserve n).wp
    (fun r d' => d'.nvs.checkpoint = d.nvs.checkpoint ∧ (d'.nvs.limit = n ∨
      r = false ∧ d'.nvs.limit = d.nvs.limit))
    (fun d' => d'.nvs.checkpoint = d.nvs.checkpoint ∧ (d'.nvs.limit = n ∨
      d'.nvs.limit = d.nvs.limit)) d := by
  rw [zjStateReserve, Prog.wp_bind, getState, Prog.wp_gets, Prog.wp_ite, Prog.wp_pure]
  obtain ⟨b, hb⟩ : ∃ b, b = withLimit d.state.root n := ⟨_, rfl⟩
  rw [← hb]
  refine ⟨fun _ => ⟨rfl, .inr ⟨rfl, rfl⟩⟩, fun hguard => ?_⟩
  simp only [not_or, not_lt, gt_iff_lt] at hguard
  have hnew : (written .root b.val d).nvs.limit = n := by
    rw [limit_of_root (b := b) rfl, hb, rootLimit_withLimit hguard.2.2]
  rw [replaceRoot, Prog.wp_bind]
  refine wp_save ?_ ⟨rfl, .inr ⟨rfl, rfl⟩⟩ ⟨rfl, .inl hnew⟩ ⟨rfl, .inr rfl⟩ ⟨rfl, .inl hnew⟩
  rw [if_pos rfl, setState, Prog.wp_bind, Prog.wp_modify, Prog.wp_pure]
  exact ⟨rfl, .inl hnew⟩

lemma eval_save {bytes : List UInt8} (name : ZjBlob) (hlen : bytes.length ≤ zjRootBytes) :
    (save name bytes).eval d = (true, written name bytes d) := by
  have hlen' : ¬bytes.length > zjRootBytes := not_lt.2 hlen
  simp [save, saveVerified, hlen', writeBlob, readBlob, written]

/-- A state that is ready commits. -/
lemma eval_stateCommit (cp : Block zjCheckpointBytes) (h : d.state.ready = true) :
    (zjStateCheckpointCommit cp).eval d = (true, written .retirement cp.val d) := by
  have hsave := eval_save (d := d) .retirement
    (show cp.val.length ≤ zjRootBytes by rw [Block.length_val]; decide)
  simp [zjStateCheckpointCommit, getState, h, hsave]

lemma wp_stateLoad (d : ZjDevice) : zjStateCheckpointLoad.wp
    (fun r d' => SameView d d' ∧ ∀ c, r = some c → c = d.nvs.checkpoint) (SameView d) d := by
  rw [zjStateCheckpointLoad, Prog.wp_bind, getState, Prog.wp_gets, Prog.wp_ite, Prog.wp_pure]
  refine ⟨fun _ => ⟨.of_nvs rfl, by simp⟩, fun _ => ?_⟩
  rw [Prog.wp_bind]
  refine wp_readBlob ⟨.of_nvs rfl, by simp⟩ (fun hlen => ⟨.of_nvs rfl, ?_⟩) (.of_nvs rfl)
  rintro c hc
  rw [← Option.some.inj hc, ZjNvs.checkpoint]
  change Option.map _ d.nvs.retirement = _
  cases hblob : d.nvs.retirement with
  | none => rfl
  | some b => simp [hlen b hblob]

end View

def stateView (serial : List UInt8) (random : Option (Block 48)) (crypto : ZjCrypto) :
    (statePort serial random crypto).View where
  checkpoint d := d.nvs.checkpoint
  limit d := d.nvs.limit
  serves d := d.state.ready = true
  boot_spec d := wp_stateBoot d
  load_spec d := wp_stateLoad d
  commit_spec cp d := wp_stateCommit cp d
  reserve_spec n d := wp_stateReserve n d
  admits_spec n d := by simp [statePort]
  commit_serves cp d h := by
    rw [statePort, eval_stateCommit cp h]
    exact ⟨rfl, h⟩
  forget_spec d := ⟨rfl, rfl⟩

/-! ### What every call keeps of the allocator -/

section Allocator

variable {π : Type} {P : ZjPort π} {V : P.View} {w : ZjWorld π}

/-- The stored limit and what the allocator hands out are at least `low`, and the allocator hands
out nothing from the stored limit on. -/
structure Above (V : P.View) (low : Nat) (w : ZjWorld π) : Prop where
  stored : low ≤ V.limit w.nv.port
  next : w.ram.sequence.ready = true → low ≤ w.ram.sequence.next ∧
    w.ram.sequence.next ≤ w.ram.sequence.limit ∧ w.ram.sequence.limit ≤ V.limit w.nv.port

variable {low : Nat}

lemma Above.mono {low' : Nat} (h : Above V low w) (hle : low' ≤ low) : Above V low' w :=
  ⟨hle.trans h.stored, fun hr => ⟨hle.trans (h.next hr).1, (h.next hr).2⟩⟩

lemma Above.set {t : π} (h : Above V low w) (ht : V.limit t = V.limit w.nv.port) :
    Above V low (portPart.set t w) :=
  ⟨h.stored.trans ht.ge, fun hr => ⟨(h.next hr).1, (h.next hr).2.1, (h.next hr).2.2.trans ht.ge⟩⟩

/-- A number below the limit is handed out. -/
lemma Above.handOut (h : Above V low w) (hr : w.ram.sequence.ready = true)
    (hlt : w.ram.sequence.next < w.ram.sequence.limit) :
    Prog.ewp (fun _ => Above V low) (fun _ => Above V low) (Above V low) handOut w := by
  obtain ⟨hstored, hnext⟩ := h
  simp only [Journal.handOut, setSequence, Prog.ewp_bind, wp_getStore, wp_setStore, wp_perform,
    Prog.wp_modify, Prog.ewp_pure]
  exact ⟨hstored, fun _ => ⟨(hnext hr).1.trans (Nat.le_succ _), hlt, (hnext hr).2.2⟩⟩

lemma ekeeps_next_above : Prog.EKeeps (Above V low) (Above V low) (zjSequenceNext P) := by
  intro w h
  simp only [zjSequenceNext, setSequence, Prog.ewp_bind, wp_getStore, Prog.ewp_ite, Prog.ewp_pure,
    wp_onPort, wp_setStore]
  refine ⟨fun _ => h, fun hguard => ?_⟩
  simp only [Bool.or_eq_true, Bool.not_eq_true', decide_eq_true_eq, not_or, Bool.not_eq_false,
    not_lt, gt_iff_lt] at hguard
  obtain ⟨⟨hr, -⟩, hmax⟩ := hguard
  obtain ⟨hlow, hle, -⟩ := h.next hr
  refine ⟨fun heq => ?_, fun hne => h.handOut hr (lt_of_le_of_ne hle hne)⟩
  have hlt := lt_nextLimit hmax
  -- Whatever became of the reservation, the stored limit is not below the old one.
  have hnew : ∀ t, V.limit t = nextLimit w.ram.sequence.next → low ≤ V.limit t ∧
      w.ram.sequence.limit ≤ V.limit t := fun t ht => by omega
  refine Prog.wp_mono (V.reserve_spec _ w.nv.port) ?_ ?_
  · rintro ok t ⟨-, ht⟩
    have hstored : low ≤ V.limit t := by
      rcases ht with ht | ⟨-, ht⟩
      · exact (hnew t ht).1
      · exact h.stored.trans ht.ge
    refine ⟨fun _ => ⟨hstored, fun hr' => absurd hr' (by simp)⟩, fun hok => ?_⟩
    have ht : V.limit t = nextLimit w.ram.sequence.next := by
      rcases ht with ht | ⟨rfl, -⟩
      · exact ht
      · simp at hok
    exact Above.handOut ⟨hstored, fun _ => ⟨hlow, hlt.le, ht.ge⟩⟩ hr hlt
  · rintro t ⟨-, ht | ht⟩
    · exact ⟨(hnew t ht).1, fun _ => ⟨hlow, hle, (hnew t ht).2⟩⟩
    · exact h.set ht

lemma blind_above : Blind P (Above V low) (Above V low) where
  instant _ h := h
  disk _ _ h := ⟨h.stored, h.next⟩
  log _ _ h := ⟨h.stored, h.next⟩
  store f hf w h := by
    refine ⟨h.stored, fun hr => ?_⟩
    rw [World.ram_onRam, hf] at hr ⊢
    exact h.next hr
  load w h := by
    rw [wp_onPort]
    exact Prog.wp_mono (V.load_spec _) (fun _ _ ht => h.set ht.1.2) fun _ ht => h.set ht.2
  commit cp w h := by
    rw [wp_onPort]
    exact Prog.wp_mono (V.commit_spec cp _) (fun _ _ ht => h.set ht.1) fun _ ht => h.set ht.1
  admits n w h := by
    rw [wp_onPort]
    exact Prog.wp_mono (V.admits_spec n _) (fun _ _ ht => h.set ht.2) fun _ ht => h.set ht.2
  next := ekeeps_next_above

/-- The allocator has nothing left: it starts at the end of the range. -/
structure Spent (V : P.View) (low : Nat) (handed : List Nat) (w : ZjWorld π) : Prop extends
    Above V low w where
  handed : w.nv.handed = handed

lemma blind_spent {handed : List Nat} (hlow : zjSequenceMax < low) :
    Blind P (Spent V low handed) (Spent V low handed) where
  instant _ h := h
  disk f w h := ⟨blind_above.disk f w h.toAbove, h.handed⟩
  log e w h := ⟨blind_above.log e w h.toAbove, h.handed⟩
  store f hf w h := ⟨blind_above.store f hf w h.toAbove, h.handed⟩
  load w h := by
    rw [wp_onPort]
    exact Prog.wp_mono (V.load_spec _) (fun _ _ ht => ⟨h.toAbove.set ht.1.2, h.handed⟩)
      fun _ ht => ⟨h.toAbove.set ht.2, h.handed⟩
  commit cp w h := by
    rw [wp_onPort]
    exact Prog.wp_mono (V.commit_spec cp _) (fun _ _ ht => ⟨h.toAbove.set ht.1, h.handed⟩)
      fun _ ht => ⟨h.toAbove.set ht.1, h.handed⟩
  admits n w h := by
    rw [wp_onPort]
    exact Prog.wp_mono (V.admits_spec n _) (fun _ _ ht => ⟨h.toAbove.set ht.2, h.handed⟩)
      fun _ ht => ⟨h.toAbove.set ht.2, h.handed⟩
  next w h := by
    rw [zjSequenceNext, Prog.ewp_bind, wp_getStore, if_pos, Prog.ewp_pure]
    · exact h
    · cases hr : w.ram.sequence.ready with
      | false => simp
      | true =>
        have := (h.next hr).1
        simp only [Bool.not_true, Bool.false_or, Bool.or_eq_true, decide_eq_true_eq]
        exact .inr (by omega)

/-- The store opens with the limit that is stored, and with nothing left in memory. -/
lemma Blind.ewp_openStore {I J : ZjWorld π → Prop} (h : Blind P I I) (metadata : ZjMetadata)
    (hport : ∀ t, V.limit t = V.limit w.nv.port → J (portPart.set t w))
    (hclear : ∀ t, V.limit t = V.limit w.nv.port → I ((portPart.set t w).onRam fun _ =>
      { ZjStore.zero with writerMetadata := some metadata }))
    (hinit : ∀ header q w', zjSequenceInit (V.limit w.nv.port) = some q → I w' →
      I (w'.onRam fun s => { s with writerHeader := header, sequence := q }))
    (hJ : ∀ w', I w' → J w') :
    Prog.ewp (fun _ => J) (fun _ => J) J ((ZjCall.openStore metadata).prog P) w := by
  rw [ZjCall.prog, Prog.ewp_bind, wp_onPort]
  refine Prog.wp_mono (V.boot_spec w.nv.port) ?_ fun t ht => hport t ht.2
  rintro limit t ⟨⟨-, ht⟩, hn⟩
  cases limit with
  | none =>
    rw [Prog.ewp_throw]
    exact hport t ht
  | some n =>
    obtain rfl := hn n rfl
    refine Prog.ewp_seq (h.zjStoreOpen (hclear t ht) hinit) ?_ (fun _ _ h => hJ _ h) fun _ h => hJ _ h
    intro _ w' h'
    rw [Prog.ewp_pure]
    exact hJ w' h'

lemma eq_of_zjSequenceInit {limit : Nat} {q : ZjSequence} (h : zjSequenceInit limit = some q) :
    q = ⟨limit, limit, true⟩ := by
  unfold zjSequenceInit at h
  split_ifs at h
  exact (Option.some.inj h).symm

lemma ekeeps_openStore_above (metadata : ZjMetadata) :
    Prog.EKeeps (Above V low) (Above V low) ((ZjCall.openStore metadata).prog P) := fun w h =>
  blind_above.ewp_openStore (I := Above V (V.limit w.nv.port)) metadata (fun _ ht => h.set ht)
    (fun _ ht => ⟨ht.ge, fun hr => absurd hr (by simp [ZjStore.zero])⟩)
    (fun header q w' hq h' => by
      obtain rfl := eq_of_zjSequenceInit hq
      exact ⟨h'.stored, fun _ => ⟨le_rfl, le_rfl, h'.stored⟩⟩)
    fun _ h' => h'.mono h.stored

lemma ekeeps_openStore_spent {handed : List Nat} (hlow : zjSequenceMax < low)
    (metadata : ZjMetadata) :
    Prog.EKeeps (Spent V low handed) (Spent V low handed) ((ZjCall.openStore metadata).prog P) := fun w h =>
  (blind_spent (hlow.trans_le h.stored)).ewp_openStore (I := Spent V (V.limit w.nv.port) handed)
    metadata (fun _ ht => ⟨h.toAbove.set ht, h.handed⟩)
    (fun _ ht => ⟨⟨ht.ge, fun hr => absurd hr (by simp [ZjStore.zero])⟩, h.handed⟩)
    (fun header q w' hq h' => by
      obtain rfl := eq_of_zjSequenceInit hq
      exact ⟨⟨h'.stored, fun _ => ⟨le_rfl, le_rfl, h'.stored⟩⟩, h'.handed⟩)
    fun _ h' => ⟨h'.toAbove.mono h.stored, h'.handed⟩

lemma above_reset {junk : Nat → List UInt8} {r : ZjRun π} (h : Above V low r.world) :
    Above V low (r.reset P junk).world :=
  ⟨h.stored.trans (V.forget_spec _).2.ge, fun hr => absurd hr (by simp [ZjRun.reset, World.reset,
    World.onNv, ZjStore.zero])⟩

lemma above_step {whole : Prop} {r r' : ZjRun π} (hstep : ZjRun.Step V whole r r')
    (h : Above V low r.world) : Above V low r'.world :=
  Blind.step (blind_above.call ekeeps_openStore_above) (fun _ _ h => above_reset h) (fun _ h => h)
    hstep h

lemma spent_step {whole : Prop} {handed : List Nat} {r r' : ZjRun π} (hlow : zjSequenceMax < low)
    (hstep : ZjRun.Step V whole r r') (h : Spent V low handed r.world) :
    Spent V low handed r'.world :=
  Blind.step ((blind_spent hlow).call (ekeeps_openStore_spent hlow))
    (fun _ _ h => ⟨above_reset h.toAbove, h.handed⟩) (fun _ h => h) hstep h

end Allocator

/-! ### The state under the store -/

section State

variable {serial : List UInt8} {random : Option (Block 48)} {crypto : ZjCrypto}

/-- The root's state is as the calls of the store leave it. -/
lemma blind_stateInv : Blind (statePort serial random crypto) (fun w => StateInv w.nv.port)
    (fun _ => True) where
  instant _ _ := trivial
  disk _ _ h := h
  log _ _ h := h
  store _ _ _ h := h
  load w h := by
    rw [wp_onPort]
    exact Prog.wp_mono wp_zjStateCheckpointLoad (fun _ _ ht => ht.symm ▸ h) fun _ _ => trivial
  commit cp w h := by
    rw [wp_onPort]
    exact Prog.wp_mono (wp_zjStateCheckpointCommit h cp) (fun _ _ ht => ht.inv) fun _ _ => trivial
  admits n w h := by
    rw [wp_onPort]
    simp only [statePort, Prog.wp_bind, Prog.wp_look, Prog.wp_ite, Prog.wp_pure]
    have hsame : StateInv (portPart.set w.nv.port w).nv.port := h
    tauto
  next w h := by
    simp only [zjSequenceNext, setSequence, handOut, Prog.ewp_bind, wp_getStore, Prog.ewp_ite,
      Prog.ewp_pure, wp_onPort, wp_setStore, wp_perform, Prog.wp_modify]
    refine ⟨fun _ => h, fun _ => ⟨fun _ => ?_, fun _ => h⟩⟩
    refine Prog.wp_mono (wp_zjStateReserve h _) (fun _ _ ht => ?_) fun _ _ => trivial
    exact ⟨fun _ => ht.inv, fun _ => ht.inv⟩

lemma ekeeps_openStore_stateInv (metadata : ZjMetadata) :
    Prog.EKeeps (fun w => StateInv w.nv.port) (fun _ => True)
      ((ZjCall.openStore metadata).prog (statePort serial random crypto)) := by
  rw [ZjCall.prog]
  refine .bind (fun w h => ?_) fun limit => ?_
  · rw [wp_onPort]
    refine Prog.wp_seq (Prog.wp_of_ewp (ewp_zjStateOpen w.nv.port serial random)) ?_
      fun _ _ => trivial
    intro x d hx
    cases x with
    | ok => exact fun _ => ⟨serial, hx.1⟩
    | error => exact stateInv_of_not_ready hx.1
  · cases limit with
    | none => exact Prog.ekeeps_throw _
    | some n =>
      refine .bind (fun w h => ?_) fun _ => Prog.ekeeps_pure _
      exact blind_stateInv.zjStoreOpen h fun _ _ _ _ h => h

lemma ewp_enableAdd_sameView {d : ZjDevice} (h : StateInv d) :
    Prog.ewp (fun _ => SameView d) (fun _ => SameView d) (SameView d) zjStateEnableAdd d := by
  have hsame : SameView d d := ⟨rfl, rfl⟩
  rw [zjStateEnableAdd, Prog.ewp_bind, Prog.ewp_lift, getState, Prog.wp_gets, Prog.ewp_ite,
    Prog.ewp_ite, Prog.ewp_throw, Prog.ewp_pure]
  obtain ⟨b, hb⟩ : ∃ b, b = withAdd d.state.root := ⟨_, rfl⟩
  have hlimit : rootLimit b = rootLimit d.state.root := hb ▸ rootLimit_withAdd _
  rw [← hb]
  refine ⟨fun _ => hsame, fun hready => ⟨fun _ => hsame, fun _ => ?_⟩⟩
  obtain ⟨serial, hd⟩ := h (by simpa using hready)
  have hnew : SameView d (written .root b.val d) :=
    ⟨rfl, (limit_of_root rfl).trans (hlimit.trans (limit_of_root hd.root).symm)⟩
  rw [Prog.ewp_bind, Prog.ewp_lift, replaceRoot, Prog.wp_bind]
  refine wp_save ?_ ?_ ?_ hsame hnew
  · rw [if_pos rfl, setState, Prog.wp_bind, Prog.wp_modify, Prog.wp_pure, if_pos rfl, Prog.ewp_pure]
    exact hnew
  · rw [if_neg (by decide), Prog.wp_pure, if_neg (by decide), Prog.ewp_throw]
    exact hsame
  · rw [if_neg (by decide), Prog.wp_pure, if_neg (by decide), Prog.ewp_throw]
    exact hnew

end State

end Journal

/-! ### Runs -/

namespace ZjRun

variable {serial : List UInt8} {random : Option (Block 48)} {crypto : ZjCrypto}
  {r r' : ZjRun ZjDevice}

/-- A call of the storage owner: one of the store, or the one that enables delivery to ADD. -/
inductive RootStep (serial : List UInt8) (random : Option (Block 48)) (crypto : ZjCrypto)
    (r : ZjRun ZjDevice) : ZjRun ZjDevice → Prop where
  | store {r' : ZjRun ZjDevice} (h : Step (stateView serial random crypto) False r r') :
      RootStep serial random crypto r r'
  | enableAdd {fs rest : List Fate} {x : Except ZjError Unit} {d : ZjDevice}
      (h : Prog.run zjStateEnableAdd.run r.world.nv.port fs = .done x d rest) :
      RootStep serial random crypto r { r with world := portPart.set d r.world }
  | crash {fs : List Fate} {d : ZjDevice} {junk : Nat → List UInt8}
      (h : Prog.run zjStateEnableAdd.run r.world.nv.port fs = .halt d) :
      RootStep serial random crypto r
        (ZjRun.reset (statePort serial random crypto) junk { r with world := portPart.set d r.world })

/-- A run over one root, on a device on which the journal was never opened. -/
def RootReach (serial : List UInt8) (random : Option (Block 48)) (crypto : ZjCrypto)
    (r : ZjRun ZjDevice) : Prop :=
  ∃ w, Blank (stateView serial random crypto) w ∧ w.nv.port.state.ready = false ∧
    w.ram.sequence.ready = false ∧
    Relation.ReflTransGen (RootStep serial random crypto) ⟨w, [], []⟩ r

/-- What holds along such a run. -/
structure RootGood (serial : List UInt8) (random : Option (Block 48)) (crypto : ZjCrypto)
    (r : ZjRun ZjDevice) : Prop where
  good : Good (stateView serial random crypto) False r
  above : Above (stateView serial random crypto) 0 r.world
  state : StateInv r.world.nv.port

lemma wp_enableAdd {d : ZjDevice} (h : StateInv d) (fs : List Fate) :
    (Prog.run zjStateEnableAdd.run d fs).Sat (fun _ d' => SameView d d' ∧ StateInv d') (SameView d) := by
  have hview : Prog.ewp (fun _ => SameView d) (fun _ => SameView d) (SameView d) zjStateEnableAdd d :=
    ewp_enableAdd_sameView h
  have hsat := Prog.ewp_run hview fs
  have hsat' := Prog.ewp_run (ewp_zjStateEnableAdd h) fs
  cases hrun : Prog.run zjStateEnableAdd.run d fs with
  | done x d' rest =>
    rw [hrun] at hsat hsat'
    cases x with
    | ok => exact ⟨hsat, hsat'.inv⟩
    | error => exact ⟨hsat, hsat'.inv⟩
  | halt d' =>
    rw [hrun] at hsat
    exact hsat

lemma same_set {d : ZjDevice} {w : ZjWorld ZjDevice} (h : SameView w.nv.port d) :
    Same (stateView serial random crypto) w (portPart.set d w) := by
  refine ⟨?_, rfl⟩
  rw [stored_set]
  exact congrArg₂ (fun c l => { stored (stateView serial random crypto) w with
    checkpoint := c, limit := l }) h.1 h.2

lemma RootStep.good (hstep : RootStep serial random crypto r r')
    (h : RootGood serial random crypto r) : RootGood serial random crypto r' := by
  cases hstep with
  | store hstep =>
    refine ⟨hstep.good h.good, above_step hstep h.above, ?_⟩
    exact Blind.step (I := fun w => StateInv w.nv.port)
      (blind_stateInv.call ekeeps_openStore_stateInv) (fun _ _ _ => stateInv_of_not_ready rfl)
      (fun _ _ => trivial) hstep h.state
  | @enableAdd fs _ _ d hrun =>
    have hsat := wp_enableAdd h.state fs
    rw [hrun] at hsat
    exact ⟨Inv.same h.good (same_set hsat.1), h.above.set hsat.1.2, hsat.2⟩
  | @crash fs d junk hrun =>
    have hsat := wp_enableAdd h.state fs
    rw [hrun] at hsat
    refine ⟨good_reset ?_ (fun h => h.elim), above_reset (h.above.set hsat.2),
      stateInv_of_not_ready rfl⟩
    exact (Inv.same h.good (same_set hsat)).safe

lemma RootReach.good (h : RootReach serial random crypto r) : RootGood serial random crypto r := by
  obtain ⟨w, hblank, hstate, hsequence, hsteps⟩ := h
  induction hsteps with
  | refl =>
    exact ⟨hblank.good, ⟨Nat.zero_le _, by simp [hsequence]⟩, stateInv_of_not_ready hstate⟩
  | tail _ hstep ih => exact hstep.good ih

/-- Once the allocator is at the end of the range, nothing is handed out any more. -/
lemma handed_of_spent {handed : List Nat} {low : Nat} (hlow : zjSequenceMax < low)
    (h : RootGood serial random crypto r)
    (hspent : Spent (stateView serial random crypto) low handed r.world)
    (hsteps : Relation.ReflTransGen (RootStep serial random crypto) r r') :
    r'.world.nv.handed = handed := by
  suffices hall : RootGood serial random crypto r' ∧
      Spent (stateView serial random crypto) low handed r'.world from hall.2.handed
  induction hsteps with
  | refl => exact ⟨h, hspent⟩
  | tail _ hstep ih =>
    obtain ⟨hgood, hs⟩ := ih
    refine ⟨hstep.good hgood, ?_⟩
    cases hstep with
    | store hstep => exact spent_step hlow hstep hs
    | @enableAdd fs _ _ d hrun =>
      have hsat := wp_enableAdd hgood.state fs
      rw [hrun] at hsat
      exact ⟨hs.toAbove.set hsat.1.2, hs.handed⟩
    | @crash fs d junk hrun =>
      have hsat := wp_enableAdd hgood.state fs
      rw [hrun] at hsat
      exact ⟨above_reset (hs.toAbove.set hsat.2), hs.handed⟩

/-- The numbers that were handed out, latest first, strictly decrease and are below the limit in
NVS; what was sealed and every file have their numbers from there; the store is opened with that
limit; and an allocator that has reached the end of the range never hands out anything again. -/
theorem sequence_never_reused (h : RootReach serial random crypto r) :
    r.world.nv.handed.Pairwise (· > ·) ∧
    (∀ v ∈ r.world.nv.handed, 0 < v ∧ v ≤ zjSequenceMax ∧ v < r.world.nv.port.nvs.limit) ∧
    (r.world.nv.log.Pairwise fun e x => x.sequence < e.sequence) ∧
    (∀ e ∈ r.world.nv.log, e.sequence ∈ r.world.nv.handed ∧ e.segment ∈ r.world.nv.handed) ∧
    (∀ id f, r.world.disk.lookup id = some f →
      id ∈ r.world.nv.handed ∧ id < r.world.nv.port.nvs.limit) ∧
    (∀ fs n d rest, (statePort serial random crypto).boot.run r.world.nv.port fs =
      .done (some n) d rest → n = r.world.nv.port.nvs.limit) ∧
    (r.world.ram.sequence.ready = true → zjSequenceMax < r.world.ram.sequence.next →
      ∀ r', Relation.ReflTransGen (RootStep serial random crypto) r r' →
        r'.world.nv.handed = r.world.nv.handed) := by
  have hgood := h.good
  obtain ⟨recs, hs, -⟩ := hgood.good
  refine ⟨hs.counted.sorted, fun v hv => hs.counted.below v hv, ?_, fun e he => hs.drawn e he, ?_, ?_,
    ?_⟩
  · exact hs.order.imp fun hx => hx.1
  · intro id f hf
    have hid := hs.files id f hf
    exact ⟨hid, (hs.counted.below id hid).2.2⟩
  · intro fs n d rest hrun
    have hsat := Prog.wp_run ((stateView serial random crypto).boot_spec r.world.nv.port) fs
    rw [hrun] at hsat
    exact hsat.2 n rfl
  · intro hr hnext r' hsteps
    obtain ⟨-, hle, hlimit⟩ := hgood.above.next hr
    exact handed_of_spent hnext hgood ⟨⟨hle.trans hlimit, fun _ => ⟨le_rfl, hle, hlimit⟩⟩, rfl⟩ hsteps

/-- A device with nothing on it. -/
def blankDevice : ZjWorld ZjDevice := ⟨∅, ⟨ZjDevice.blank, [], []⟩, ZjStore.zero⟩

def sampleSerial : List UInt8 := ascii "ZONE-1"

def sampleRandom : Option (Block 48) := some (.ofList 48 (List.replicate 48 1))

/-- Delivery to ADD is enabled, and nothing goes wrong. -/
def enableAdd (r : ZjRun ZjDevice) : ZjRun ZjDevice :=
  { r with world := portPart.set (Prog.eval zjStateEnableAdd.run r.world.nv.port).2 r.world }

lemma RootReach.evalCall (h : RootReach serial random crypto r) (c : ZjCall) :
    RootReach serial random crypto (r.evalCall (stateView serial random crypto) c) := by
  obtain ⟨w, hw, hstate, hsequence, hsteps⟩ := h
  exact ⟨w, hw, hstate, hsequence, hsteps.tail (.store (.call c (Prog.run_nil _ _)))⟩

lemma RootReach.enableAdd (h : RootReach serial random crypto r) :
    RootReach serial random crypto r.enableAdd := by
  obtain ⟨w, hw, hstate, hsequence, hsteps⟩ := h
  exact ⟨w, hw, hstate, hsequence, hsteps.tail (.enableAdd (Prog.run_nil _ _))⟩

/-- The store is opened for the first time, delivery to ADD is enabled, and one observation is
appended. -/
def rootAppended : ZjRun ZjDevice :=
  evalCall (stateView sampleSerial sampleRandom logCrypto)
    (enableAdd (evalCall (stateView sampleSerial sampleRandom logCrypto) ⟨blankDevice, [], []⟩
      (.openStore Journal.sampleMetadata)))
    (.append sampleObservation)

lemma reach_rootAppended : RootReach sampleSerial sampleRandom logCrypto rootAppended := by
  have hstart : RootReach sampleSerial sampleRandom logCrypto ⟨blankDevice, [], []⟩ :=
    ⟨blankDevice, ⟨fun _ => rfl, rfl, rfl, rfl, rfl⟩, rfl, rfl, .refl⟩
  exact (hstart.evalCall (.openStore Journal.sampleMetadata)).enableAdd.evalCall
    (.append sampleObservation)

theorem sequence_never_reused_appended :
    rootAppended.world.nv.handed = [2, 1] ∧ rootAppended.world.nv.handed.Pairwise (· > ·) ∧
      ∀ v ∈ rootAppended.world.nv.handed, v < rootAppended.world.nv.port.nvs.limit := by
  obtain ⟨hsorted, hbelow, -⟩ := sequence_never_reused reach_rootAppended
  exact ⟨by decide +kernel, hsorted, fun v hv => (hbelow v hv).2.2⟩

end ZjRun

end ZoneLite
