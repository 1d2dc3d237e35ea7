import AutoAttn.Journal.Run

/-!
# What only the sequence numbers can change

A property that does not look at files, at the log or at the rest of the store is kept by every call
if it is kept by drawing a number, by opening, and by what the port does to its own state.
-/

namespace ZoneLite

open Bytes Crash

namespace Journal

variable {π α : Type} {P : ZjPort π}

/-- A property of the sequence numbers, and what of it holds at every instant. -/
structure Blind (P : ZjPort π) (I C : ZjWorld π → Prop) : Prop where
  instant : ∀ w, I w → C w
  disk : ∀ f w, I w → I (w.onDisk f)
  log : ∀ e w, I w → I (w.onNv fun n => { n with log := e :: n.log })
  store : ∀ f : ZjStore → ZjStore, (∀ s, (f s).sequence = s.sequence) →
    ∀ w, I w → I (w.onRam f)
  load : Prog.EKeeps I C (onPort P.load)
  commit : ∀ cp, Prog.EKeeps I C (onPort (P.commit cp))
  admits : ∀ n, Prog.EKeeps I C (onPort (P.admits n))
  next : Prog.EKeeps I C (zjSequenceNext P)

namespace Blind

variable {I C : ZjWorld π → Prop}

/-! ### Primitives -/

lemma getStore : Prog.EKeeps I C (getStore (π := π)) := Prog.ekeeps_gets _

section

variable (h : Blind P I C)
include h

lemma look : Prog.EKeeps I C (look (π := π)) := Prog.keeps_look.lift h.instant

lemma probe (id : Nat) : Prog.EKeeps I C (perform (π := π) (probe id)) :=
  (keeps_probe id).lift h.instant

lemma setStore {f : ZjStore → ZjStore} (hf : ∀ s, (f s).sequence = s.sequence) :
    Prog.EKeeps I C (setStore (π := π) f) := fun w hw => by
  rw [wp_setStore]
  exact h.store f hf w hw

lemma note (operation : String) : Prog.EKeeps I C (note (π := π) operation) :=
  h.setStore fun _ => rfl

lemma failure (operation : String) (result : ZjError) :
    Prog.EKeeps I C (failure (π := π) (α := α) operation result) :=
  (h.note operation).bind fun _ => Prog.ekeeps_throw result

lemma fsync (id : Nat) : Prog.EKeeps I C (perform (π := π) (fsync id)) :=
  (Prog.keeps_atomic fun w hw => h.disk _ w hw).lift h.instant

lemma create (id : Nat) : Prog.EKeeps I C (perform (π := π) (create id)) :=
  ((Prog.keeps_gets _).bind fun _ =>
    (Prog.keeps_pure _).ite (Prog.keeps_atomic fun w hw => h.disk _ w hw)).lift h.instant

lemma commitData (id off : Nat) (bytes : List UInt8) (header positioned : Bool) :
    Prog.EKeeps I C (commitData (π := π) id off bytes header positioned) := by
  have hland : ∀ n (w : ZjWorld π), I w → I (land id off bytes n w) := fun n w hw => h.disk _ w hw
  have hwrite : Prog.EKeeps I C (perform (π := π) (fwrite id off bytes)) :=
    (Prog.keeps_op (fun w hw => hw) hland).lift h.instant
  have hflush : Prog.EKeeps I C (perform (π := π) (fflush id off bytes)) :=
    (Prog.keeps_op (hland _) hland).lift h.instant
  unfold Journal.commitData
  refine .ite (Prog.ekeeps_pure _) (hwrite.bind fun _ => .ite ?_ (hflush.bind fun _ => .ite ?_
    ((h.fsync id).bind fun _ => .ite ?_ (Prog.ekeeps_pure _))))
  all_goals exact (h.note _).bind fun _ => Prog.ekeeps_pure _

lemma commitFile (id off : Nat) (bytes : List UInt8) (header positioned : Bool) :
    Prog.EKeeps I C (commitFile (π := π) id off bytes header positioned) := by
  unfold Journal.commitFile
  refine (h.commitData id off bytes header positioned).bind fun _ => h.look.bind fun _ => .ite ?_
    (Prog.ekeeps_pure _)
  exact (h.note _).bind fun _ => Prog.ekeeps_pure _

lemma readBytes (id off length : Nat) : Prog.EKeeps I C (readBytes (π := π) id off length) := by
  unfold Journal.readBytes
  refine (h.probe id).bind fun found => ?_
  match found with
  | none | some none => exact h.failure _ _
  | some (some f) =>
    exact h.look.bind fun _ => h.look.bind fun _ => .ite (Prog.ekeeps_pure _) (h.failure _ _)

/-! ### Opening -/

lemma readHeader (g : ZjSegment) : Prog.EKeeps I C (readHeader (π := π) g) := by
  unfold Journal.readHeader
  refine .ite (Prog.ekeeps_pure _) ((h.probe g.id).bind fun found => ?_)
  match found with
  | none | some none => exact h.failure _ _
  | some (some f) =>
    refine h.look.bind fun _ => h.look.bind fun _ => .ite ?_ (h.failure _ _)
    split <;> exact Prog.ekeeps_pure _

lemma scanEntry (limit : Nat) (name : List Char) :
    Prog.EKeeps I C (scanEntry (π := π) limit name) := by
  unfold Journal.scanEntry
  cases fileId name with
  | none => exact h.failure _ _
  | some id =>
    refine .check (h.failure _ _) fun _ => getStore.bind fun _ => .check (h.failure _ _) fun _ =>
      (h.probe id).bind fun found => ?_
    match found with
    | none | some none => exact h.failure _ _
    | some (some f) =>
      refine .check (h.failure _ _) fun _ => (h.readHeader _).bind fun _ => .ite ?_
        (Prog.ekeeps_pure _)
      exact (h.readBytes id 0 8).bind fun _ => Prog.ekeeps_pure _

lemma scan (limit : Nat) (names : List (List Char)) (replay : Bool) :
    Prog.EKeeps I C (scan (π := π) limit names replay) := by
  induction names generalizing replay with
  | nil =>
    unfold Journal.scan
    exact h.look.bind fun _ => .check (h.failure _ _) fun _ => Prog.ekeeps_pure _
  | cons name names ih =>
    unfold Journal.scan
    exact h.look.bind fun _ => .check (h.failure _ _) fun _ => (h.scanEntry limit name).bind fun _ =>
      getStore.bind fun _ => .bind (h.setStore fun _ => rfl) fun _ => ih _

lemma loadCheckpoint (cp : Block zjCheckpointBytes) :
    Prog.EKeeps I C (loadCheckpoint (π := π) cp) := by
  unfold Journal.loadCheckpoint
  cases parseCheckpoint cp with
  | none => exact Prog.ekeeps_pure _
  | some c => exact .bind (h.setStore fun _ => rfl) fun _ => Prog.ekeeps_pure _

lemma openCheckpoint (limit : Nat) : Prog.EKeeps I C (openCheckpoint P limit) := by
  unfold Journal.openCheckpoint
  refine h.load.bind fun loaded => ?_
  match loaded with
  | none => exact h.failure _ _
  | some none => exact Prog.ekeeps_pure _
  | some (some cp) =>
    refine (h.loadCheckpoint cp).bind fun _ => getStore.bind fun _ => .ite ?_ (Prog.ekeeps_pure _)
    exact .bind (h.setStore fun _ => rfl) fun _ => Prog.ekeeps_pure _

lemma preserveExisting (evidence : List UInt8) (segments : List ZjSegment) :
    Prog.EKeeps I C (preserveExisting (π := π) evidence segments) := by
  induction segments with
  | nil => exact Prog.ekeeps_pure _
  | cons g gs ih =>
    unfold Journal.preserveExisting
    refine .ite ih ((h.readBytes _ _ _).bind fun _ => .ite ih ((h.probe g.id).bind fun found => ?_))
    rcases found with _ | _ | f
    · exact h.failure _ _
    · exact h.failure _ _
    · exact (h.fsync g.id).bind fun _ => h.look.bind fun _ =>
        .ite (Prog.ekeeps_pure _) (h.failure _ _)

lemma writeEvidence (id : Nat) (evidence : List UInt8) :
    Prog.EKeeps I C (writeEvidence (π := π) id evidence) := by
  unfold Journal.writeEvidence
  refine (h.create id).bind fun _ => .ite (h.look.bind fun _ => .ite ((h.commitFile _ _ _ _ _).bind
    fun _ => .ite ((h.probe id).bind fun found => ?_) (Prog.ekeeps_throw _)) (h.failure _ _))
    (h.failure _ _)
  match found with
  | none | some none => exact h.failure _ _
  | some (some f) => exact .ite (h.setStore fun _ => rfl) (h.failure _ _)

lemma preserveCheckpoint (cp : Block zjCheckpointBytes) :
    Prog.EKeeps I C (preserveCheckpoint P cp) := by
  unfold Journal.preserveCheckpoint
  refine getStore.bind fun s => (h.preserveExisting _ _).bind fun _ => .ite (Prog.ekeeps_pure _)
    (getStore.bind fun _ => .ite (h.failure _ _) ((h.admits _).bind fun admission => ?_))
  cases admission with
  | full => exact h.failure _ _
  | io => exact h.failure _ _
  | granted =>
    refine h.next.bind fun drawn => ?_
    cases drawn with
    | none => exact h.failure _ _
    | some id => exact h.writeEvidence id _

lemma replayFrom (cp : Block zjCheckpointBytes) : Prog.EKeeps I C (replayFrom P cp) := by
  unfold Journal.replayFrom
  refine .bind (h.setStore fun _ => rfl) fun _ => (h.preserveCheckpoint cp).bind fun _ =>
    (h.commit _).bind fun _ => .check (h.failure _ _) fun _ => (h.loadCheckpoint _).bind fun _ => ?_
  exact .ite (Prog.ekeeps_throw _) (Prog.ekeeps_pure _)

lemma openFiles (limit : Nat) (loaded : Option (Block zjCheckpointBytes)) (replay : Bool) :
    Prog.EKeeps I C (openFiles P limit loaded replay) := by
  unfold Journal.openFiles
  refine h.look.bind fun _ => .check (h.failure _ _) fun _ => (Prog.ekeeps_gets _).bind fun ids =>
    (h.scan limit _ _).bind fun again => h.look.bind fun _ => .check (h.failure _ _) fun _ =>
    .bind (h.setStore fun _ => rfl) fun _ => ?_
  have hready : ∀ u : PUnit, Prog.EKeeps I C (Journal.setStore (π := π) fun s =>
      { recoveryPending s with ready := true }) := fun _ => h.setStore fun _ => rfl
  match loaded, again with
  | some cp, true => exact (h.replayFrom cp).bind hready
  | some cp, false => exact hready ⟨⟩
  | none, _ => exact hready ⟨⟩

lemma zjStoreOpen {limit : Nat} {metadata : ZjMetadata} {w : ZjWorld π}
    (hclear : I (w.onRam fun _ => { ZjStore.zero with writerMetadata := some metadata }))
    (hinit : ∀ header q w, zjSequenceInit limit = some q → I w →
      I (w.onRam fun s => { s with writerHeader := header, sequence := q })) :
    Prog.ewp (fun _ => I) (fun _ => I) C (zjStoreOpen P metadata limit) w := by
  rw [Journal.zjStoreOpen, Prog.ewp_bind, wp_setStore]
  cases zjMetadataEncode metadata with
  | none => exact Prog.ekeeps_throw _ _ hclear
  | some header =>
    generalize hq : zjSequenceInit limit = drawn at hinit
    cases drawn with
    | none => exact Prog.ekeeps_throw _ _ hclear
    | some q =>
      refine Prog.EKeeps.bind (fun w hw => ?_) (fun _ => (h.openCheckpoint limit).bind fun loaded =>
        h.openFiles limit _ _) _ hclear
      rw [wp_setStore]
      exact hinit header q w rfl hw

/-! ### Appending -/

lemma enterCreated (id : Nat) (ok : Bool) : Prog.EKeeps I C (enterCreated (π := π) id ok) := by
  unfold Journal.enterCreated
  refine (h.probe id).bind fun found => ?_
  match found with
  | none | some none => exact .bind (h.setStore fun _ => rfl) fun _ => h.failure _ _
  | some (some f) =>
    refine .ite (.bind (h.setStore fun _ => rfl) fun _ => h.failure _ _)
      (.bind (h.setStore fun _ => rfl) fun _ => .ite (h.setStore fun _ => rfl) ?_)
    exact .ite (h.failure _ _) (Prog.ekeeps_throw _)

lemma createFile (id : Nat) (header : List UInt8) :
    Prog.EKeeps I C (createFile (π := π) id header) := by
  unfold Journal.createFile
  refine (h.create id).bind fun _ => .ite ?_ (h.failure _ _)
  refine .bind (h.setStore fun _ => rfl) fun _ => h.look.bind fun _ => .ite ?_ (h.failure _ _)
  exact (h.commitFile _ _ _ _ _).bind fun _ => h.enterCreated id _

lemma createSegment : Prog.EKeeps I C (createSegment P) := by
  unfold Journal.createSegment
  refine getStore.bind fun _ => .check (h.failure _ _) fun _ => (h.admits _).bind fun _ =>
    .check (Prog.ekeeps_throw _) fun _ => h.next.bind fun drawn => ?_
  cases drawn with
  | none => exact h.failure _ _
  | some id =>
    refine .bind (h.setStore fun _ => rfl) fun _ => getStore.bind fun s => ?_
    cases s.writerMetadata.bind zjMetadataEncode with
    | none => exact Prog.ekeeps_throw _
    | some header => exact .bind (h.setStore fun _ => rfl) fun _ => h.createFile id header

lemma appendRecord (segment : ZjSegment) (sequence : Nat) (record : List UInt8) :
    Prog.EKeeps I C (appendRecord (π := π) segment sequence record) := by
  unfold Journal.appendRecord
  refine (h.probe _).bind fun found => ?_
  match found with
  | none | some none => exact h.failure _ _
  | some (some f) =>
    have hpositioned : Prog.EKeeps I C (positioned (π := π) f segment) := by
      unfold positioned
      refine h.look.bind fun _ => .ite ?_ (.ite ?_ (Prog.ekeeps_pure _))
      all_goals exact (h.note _).bind fun _ => Prog.ekeeps_pure _
    refine hpositioned.bind fun _ => (h.commitFile _ _ _ _ _).bind fun _ => .ite ?_ ?_
    · exact .bind (h.setStore fun _ => rfl) fun _ => Prog.ekeeps_pure _
    · refine .bind (h.setStore fun _ => rfl) fun _ => (h.probe _).bind fun again => ?_
      have hthrow : ∀ u : PUnit, Prog.EKeeps I C (throw .uncertain : ZjM π Nat) := fun _ =>
        Prog.ekeeps_throw _
      match again with
      | none | some none => exact .bind (h.setStore fun _ => rfl) hthrow
      | some (some f) =>
        exact .ite (.bind (h.setStore fun _ => rfl) hthrow) (.bind (h.setStore fun _ => rfl) hthrow)

lemma zjStoreAppend (o : ZjObservation) : Prog.EKeeps I C (zjStoreAppend P o) := by
  have hensure : Prog.EKeeps I C (ensureWriter P) := by
    unfold ensureWriter
    exact getStore.bind fun _ => .ite (Prog.ekeeps_pure _)
      (.bind (h.setStore fun _ => rfl) fun _ => h.createSegment)
  unfold Journal.zjStoreAppend
  refine getStore.bind fun _ => .check (Prog.ekeeps_throw _) fun _ =>
    .check (Prog.ekeeps_throw _) fun _ => hensure.bind fun _ => getStore.bind fun s => ?_
  cases writer s with
  | none => exact Prog.ekeeps_throw _
  | some segment =>
    refine (h.admits _).bind fun _ => .check (Prog.ekeeps_throw _) fun _ => h.next.bind fun drawn => ?_
    cases drawn with
    | none => exact h.failure _ _
    | some sequence =>
      dsimp only
      split
      · exact h.failure _ _
      · refine .bind (fun w hw => ?_) fun _ => h.appendRecord _ _ _
        rw [wp_perform, Prog.wp_modify]
        exact h.log _ w hw

/-! ### Reading, settling and reclaiming -/

lemma frameAt (s : ZjStore) (g : ZjSegment) (offset : Nat)
    (header : Option (List UInt8 × ZjMetadata)) : Prog.EKeeps I C (frameAt P s g offset header) := by
  cases header with
  | none => exact Prog.ekeeps_pure _
  | some header =>
    unfold Journal.frameAt
    refine .ite (Prog.ekeeps_pure _) ((h.readBytes _ _ _).bind fun bytes => ?_)
    cases zjRecordLength bytes with
    | none => exact Prog.ekeeps_pure _
    | some framed =>
      refine .ite (Prog.ekeeps_pure _) ((h.readBytes _ _ _).bind fun _ =>
        (Prog.ekeeps_gets _).bind fun _ => ?_)
      split <;> exact Prog.ekeeps_pure _

lemma exceptionLength (g : ZjSegment) (offset : Nat) (headerOk : Bool) :
    Prog.EKeeps I C (exceptionLength (π := π) g offset headerOk) := by
  unfold Journal.exceptionLength
  exact .ite ((h.readBytes _ _ _).bind fun _ => Prog.ekeeps_pure _) (Prog.ekeeps_pure _)

lemma zjStorePeek : Prog.EKeeps I C (zjStorePeek P) := by
  unfold Journal.zjStorePeek
  refine getStore.bind fun s => .check (Prog.ekeeps_throw _) fun _ => ?_
  cases headSegment s with
  | none => exact Prog.ekeeps_throw _
  | some g =>
    refine (h.readHeader g).bind fun _ => (h.frameAt _ _ _ _).bind fun frame => .ite ?_ ?_
    · cases P.crypto.digest frame.record with
      | none => exact h.failure _ _
      | some digest => exact Prog.ekeeps_pure _
    · refine (h.exceptionLength _ _ _).bind fun _ => (h.readBytes _ _ _).bind fun bytes => ?_
      cases P.crypto.digest bytes with
      | none => exact h.failure _ _
      | some digest => exact Prog.ekeeps_pure _

lemma zjStoreSettle (token : ZjToken) (receipt : Block 32) :
    Prog.EKeeps I C (zjStoreSettle P token receipt) := by
  unfold Journal.zjStoreSettle
  refine getStore.bind fun _ => .check (Prog.ekeeps_throw _) fun _ => .check (Prog.ekeeps_throw _)
    fun _ => h.zjStorePeek.bind fun _ => .check (Prog.ekeeps_throw _) fun _ => getStore.bind fun _ =>
    (h.commit _).bind fun _ =>
    .ite (.bind (h.setStore fun _ => rfl) fun _ => .bind (h.failure _ _) fun _ => ?_) ?_
  all_goals
    exact (h.loadCheckpoint _).bind fun _ => .ite
      (.bind (h.setStore fun _ => rfl) fun _ => .bind (Prog.ekeeps_throw _) fun _ =>
        h.setStore fun _ => rfl) (h.setStore fun _ => rfl)

lemma zjStoreReclaimStep : Prog.EKeeps I C (zjStoreReclaimStep (π := π)) := by
  unfold Journal.zjStoreReclaimStep
  refine getStore.bind fun s => .check (Prog.ekeeps_throw _) fun _ => ?_
  cases s.segments.find? (reclaimable s) with
  | none => exact Prog.ekeeps_throw _
  | some g =>
    have hunlink : Prog.EKeeps I C (perform (π := π) (unlink g.id)) :=
      (Prog.keeps_atomic fun w hw => h.disk _ w hw).lift h.instant
    exact .bind (h.setStore fun _ => rfl) fun _ => hunlink.bind fun _ =>
      .check (h.failure _ _) fun _ => h.setStore fun _ => rfl

/-- Every call keeps the property, if opening does. -/
lemma call (hopen : ∀ metadata, Prog.EKeeps I C ((ZjCall.openStore metadata).prog P)) (c : ZjCall) :
    Prog.EKeeps I C (c.prog P) := by
  cases c with
  | openStore metadata => exact hopen metadata
  | append o => exact h.zjStoreAppend o
  | peek => exact h.zjStorePeek.bind fun _ => Prog.ekeeps_pure _
  | settle token receipt => exact (h.zjStoreSettle token receipt).bind fun _ => Prog.ekeeps_pure _
  | reclaimStep => exact h.zjStoreReclaimStep.bind fun _ => Prog.ekeeps_pure _

end

/-- A step of a run keeps the property, if a loss of power does. -/
lemma step {V : P.View} {whole : Prop} {r r' : ZjRun π} (hcall : ∀ c : ZjCall, Prog.EKeeps I C (c.prog P))
    (hreset : ∀ junk (r : ZjRun π), C r.world → I (r.reset P junk).world)
    (hinstant : ∀ w, I w → C w) (hstep : ZjRun.Step V whole r r') (h : I r.world) : I r'.world := by
  cases hstep with
  | @call c fs _ x _ hrun =>
    have hsat := Prog.ewp_run (hcall c _ h) fs
    rw [hrun] at hsat
    cases x <;> exact hsat
  | @crash c fs w junk hrun _ =>
    have hsat := Prog.ewp_run (hcall c _ h) fs
    rw [hrun] at hsat
    exact hreset junk (r.after V c false w) hsat
  | reset _ => exact hreset _ r (hinstant _ h)

end Blind

end Journal

end ZoneLite
