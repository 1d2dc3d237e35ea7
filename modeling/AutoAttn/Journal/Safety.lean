import AutoAttn.Journal.Settle

/-!
# What the calls keep

Every call of the store keeps the invariant, whatever fails in it, and keeps the part of it that
is about storage at every instant.
-/

namespace ZoneLite

open Bytes Crash

namespace Journal

variable {π : Type} {P : ZjPort π} {V : P.View} {whole : Prop} {kept : List ZjSealed}
  {settled : List ZjToken} {w w' : ZjWorld π}

/-- Storage is sound. -/
def Safe (V : P.View) (whole : Prop) (kept : List ZjSealed) (settled : List ZjToken)
    (w : ZjWorld π) : Prop :=
  ∃ recs, Sound P.crypto whole kept settled recs (stored V w)

/-- Storage is sound, and an open store knows about it. -/
def Inv (V : P.View) (whole : Prop) (kept : List ZjSealed) (settled : List ZjToken)
    (w : ZjWorld π) : Prop :=
  ∃ recs, Sound P.crypto whole kept settled recs (stored V w) ∧
    (w.ram.ready = true → Tracked (stored V w) recs w.ram)

lemma Inv.safe (h : Inv V whole kept settled w) : Safe V whole kept settled w := by
  obtain ⟨recs, h, -⟩ := h
  exact ⟨recs, h⟩

/-- Storage alone decides as long as the store is not open. -/
lemma Safe.inv (h : Safe V whole kept settled w) (hr : w.ram.ready = false) :
    Inv V whole kept settled w := by
  obtain ⟨recs, h⟩ := h
  exact ⟨recs, h, by simp [hr]⟩

/-- What is only reported does not matter. -/
lemma Tracked.relabel {d : Stored} {recs : Nat → List ZjSealed} {s : ZjStore}
    (h : Tracked d recs s) (metadata : Option ZjMetadata) (ready pending : Bool)
    (operation : String) :
    Tracked d recs { s with writerMetadata := metadata, ready := ready,
                            checkpointRecoveryPending := pending, lastOperation := operation } :=
  ⟨h.sorted, h.known, h.listed, h.faithful, h.missing, h.cursor, h.inside, fun hw =>
    ⟨(h.writing hw).listed, (h.writing hw).file, (h.writing hw).newest, (h.writing hw).reached,
      (h.writing hw).log⟩, h.counting⟩

lemma Inv.noted (h : Inv V whole kept settled w) (hn : Noted w w') :
    Inv V whole kept settled w' := by
  obtain ⟨operation, rfl⟩ := hn
  obtain ⟨recs, h, ht⟩ := h
  exact ⟨recs, h, fun hr => (ht hr).relabel _ _ _ operation⟩

lemma stored_set (V : P.View) (t : π) (w : ZjWorld π) :
    stored V (portPart.set t w) =
      { stored V w with checkpoint := V.checkpoint t, limit := V.limit t } := rfl

/-! ### Peeking and settling -/

lemma wp_peek_inv (h : Inv V whole kept settled w) :
    Prog.ewp (fun _ => Inv V whole kept settled) (fun _ => Inv V whole kept settled)
      (Safe V whole kept settled) (zjStorePeek P) w := by
  refine Prog.ewp_mono wp_zjStorePeek ?_ (fun _ w' hw' => h.noted hw'.1) fun w' hw' =>
    (h.noted hw').safe
  rintro item w' ⟨rfl, -⟩
  exact h

/-- The settlements that reached storage after a call that tried to settle `token`. -/
def settledBy (V : P.View) (token : ZjToken) (settled : List ZjToken) (w w' : ZjWorld π) :
    List ZjToken :=
  if V.checkpoint w'.nv.port = V.checkpoint w.nv.port then settled else token :: settled

lemma settledBy_of_eq {token : ZjToken} (h : V.checkpoint w'.nv.port = V.checkpoint w.nv.port) :
    settledBy V token settled w w' = settled := if_pos h

lemma settledBy_of_ne {token : ZjToken} (h : V.checkpoint w'.nv.port ≠ V.checkpoint w.nv.port) :
    settledBy V token settled w w' = token :: settled := if_neg h

lemma wp_settle_inv (h : Inv V whole kept settled w) (token : ZjToken) (receipt : Block 32) :
    Prog.ewp (fun _ w' => Inv V whole kept (settledBy V token settled w w') w')
      (fun _ w' => Inv V whole kept (settledBy V token settled w w') w')
      (fun w' => Safe V whole kept (settledBy V token settled w w') w')
      (zjStoreSettle P token receipt) w := by
  have hsame : ∀ w', V.checkpoint w'.nv.port = V.checkpoint w.nv.port →
      settledBy V token settled w w' = settled := fun w' hw' => if_pos hw'
  have hnoted : ∀ w', Noted w w' → V.checkpoint w'.nv.port = V.checkpoint w.nv.port := by
    rintro w' ⟨op, rfl⟩
    rfl
  simp only [zjStoreSettle, Prog.ewp_bind, wp_getStore, Prog.ewp_ite, Prog.ewp_throw]
  refine ⟨fun _ => ?_, fun hready => ⟨fun _ => ?_, fun hrev => ?_⟩⟩
  · rw [hsame w rfl]
    exact h
  · rw [hsame w rfl]
    exact h
  refine Prog.ewp_mono wp_zjStorePeek ?_ ?_ ?_
  · rintro item w' ⟨rfl, -, g, f, hg, hf, hitem⟩
    simp only [Bool.not_eq_true', Bool.not_eq_false] at hready
    obtain ⟨recs, hs, ht⟩ := h
    have ht := ht hready
    refine ⟨fun _ => ?_, fun htoken => ?_⟩
    · rw [hsame w' rfl]
      exact ⟨recs, hs, fun _ => ht⟩
    simp only [ne_eq, not_not] at htoken
    subst htoken
    obtain ⟨hmem, hle, hlt⟩ := headSegment_spec hg
    have hsize : f.bytes.length = g.size := (ht.faithful g hmem f hf).1.symm
    obtain ⟨hid, hoff, hshape⟩ := itemOf_shape hsize hitem
    have hbounds := (stored V w').cursor_bounds
    rw [ht.cursor] at hbounds
    have hparse := parse_nextCheckpoint hsize hlt hid hshape
      (hs.counted.below _ (ht.known g hmem).1).2.1 (ht.known g hmem).2 hbounds.2.2
      (lt_of_le_of_ne hbounds.1 fun heq => hrev (by simp [heq])) receipt
    have hsound := hs.settle ht hg hf hid hoff hshape hparse
    have htrack := ht.settle hg hf hid hshape hparse
    obtain ⟨cp, hcp⟩ : ∃ cp, cp = checkpointBytes (nextCheckpoint w'.ram item.token) receipt :=
      ⟨_, rfl⟩
    rw [← hcp] at hparse hsound htrack ⊢
    -- The revision tells the new checkpoint from the old one.
    have hchanged : some cp ≠ V.checkpoint w'.nv.port := by
      intro heq
      have hcur : (stored V w').cursor = nextCheckpoint w'.ram item.token := by
        simp [Stored.cursor, stored, ← heq, hparse]
      rw [ht.cursor] at hcur
      have := congrArg ZjCheckpoint.revision hcur
      simp [nextCheckpoint] at this
    have hnz : (nextCheckpoint w'.ram item.token).segment ≠ 0 :=
      fun h0 => absurd (hs.counted.below _ (ht.known g hmem).1).1 (by rw [← hid]; exact h0.le.not_gt)
    have hnew : ∀ t, V.limit t = V.limit w'.nv.port → V.checkpoint t = some cp →
        stored V (portPart.set t w') = { stored V w' with checkpoint := some cp } ∧
        V.checkpoint t ≠ V.checkpoint w'.nv.port := by
      intro t hl hc
      rw [stored_set, hl, hc]
      exact ⟨rfl, hchanged⟩
    have hsafe : ∀ t, V.limit t = V.limit w'.nv.port →
        (V.checkpoint t = some cp ∨ V.checkpoint t = V.checkpoint w'.nv.port) →
        Safe V whole kept (settledBy V item.token settled w' (portPart.set t w'))
          (portPart.set t w') := by
      rintro t hl (hc | hc)
      · obtain ⟨hst, hne⟩ := hnew t hl hc
        rw [settledBy_of_ne hne]
        exact ⟨recs, hst ▸ hsound⟩
      · rw [settledBy_of_eq hc]
        refine ⟨recs, ?_⟩
        rw [stored_set, hl, hc]
        exact hs
    rw [wp_onPort]
    refine Prog.wp_mono (V.commit_spec cp w'.nv.port) ?_ ?_
    · rintro r t ⟨hl, hc⟩
      cases r with
      | true =>
        obtain ⟨hst, hne⟩ := hnew t hl (by simpa using hc)
        simp only [Bool.not_true, Bool.false_eq_true, loadCheckpoint, hparse,
          Prog.ewp_bind, wp_setStore, Prog.ewp_pure, false_imp_iff, true_and,
          not_false_eq_true, true_imp_iff, hnz, decide_true, Bool.true_or, ne_eq]
        refine ⟨recs, ?_, fun _ => ?_⟩
        · rw [settledBy_of_ne]
          · show Sound P.crypto whole kept _ recs (stored V (portPart.set t w'))
            rw [hst]
            exact hsound
          · exact hne
        · show Tracked (stored V (portPart.set t w')) recs (advance w'.ram item.token)
          rw [hst]
          exact htrack
      | false =>
        simp only [Bool.not_false, wp_setStore, wp_failure, true_imp_iff,
          not_true_eq_false, false_imp_iff, and_true]
        exact Safe.inv (hsafe t hl (hc.imp_right And.right)) rfl
    · rintro t ⟨hl, hc⟩
      exact hsafe t hl hc
  · rintro e w' ⟨hn, -⟩
    rw [hsame w' (hnoted w' hn)]
    exact h.noted hn
  · intro w' hn
    rw [hsame w' (hnoted w' hn)]
    exact (h.noted hn).safe

/-! ### Reclaiming -/

section Reclaim

variable {crypto : ZjCrypto} {recs : Nat → List ZjSealed} {d : Stored} {s : ZjStore} {g : ZjSegment}

/-- The store may forget where it was writing. -/
lemma Tracked.stopWriting (h : Tracked d recs s) {id : Nat} (hid : id ≠ 0 → id = s.writerId) :
    Tracked d recs { s with writerId := id } :=
  { h with
    writing := fun h0 => by
      obtain rfl := hid h0
      exact h.writing h0 }

lemma mem_eraseP_of_find? {α : Type} {p : α → Bool} {l : List α} {a x : α}
    (ha : l.find? p = some a) (hx : x ∈ l) (hne : x ≠ a) : x ∈ l.eraseP p := by
  obtain ⟨hp, before, after, rfl, hbefore⟩ := List.find?_eq_some_iff_append.1 ha
  rw [List.eraseP_append_right _ (by simpa using hbefore), List.eraseP_cons_of_pos hp]
  simpa [hne] using hx

lemma Sound.covered_of_reclaimable (h : Sound crypto whole kept settled recs d)
    (ht : Tracked d recs s) (hg : g ∈ s.segments) (hr : reclaimable s g = true) :
    ∀ e ∈ kept, e.segment = g.id → ∀ p, e.offset ≤ p → p < e.stop → Covered settled g.id p := by
  intro e he hseg p hlo hhi
  rw [← hseg]
  refine h.covered e he p hlo hhi ?_
  cases hf : d.disk.lookup e.segment with
  | none => exact .inl rfl
  | some f =>
    obtain ⟨hmem, -⟩ := h.kept_stable e he f hf
    obtain ⟨f', header, tail, hf', hh, -⟩ := h.holds hmem
    obtain rfl : f' = f := Option.some.inj (hf'.symm.trans hf)
    have hstop := hh.stop_le hmem
    have hstart := (hh.contiguous.bounds hmem).1
    have hsize := (ht.faithful g hg f' (hseg ▸ hf)).1
    rw [File.size] at hsize
    have hpos : 0 < zjMetaBytes := by decide
    refine .inr ?_
    rw [ht.cursor, Before]
    simp only [reclaimable, Bool.or_eq_true, Bool.and_eq_true, decide_eq_true_eq] at hr
    rcases hr with ((hr | ⟨-, hr⟩) | hr) | ⟨hr, hle⟩
    · omega
    · omega
    · exact .inl (hseg ▸ hr)
    · exact .inr ⟨hseg ▸ hr, show p < s.readOffset by omega⟩

/-- A segment with nothing to read loses its file, and may leave the inventory. -/
lemma Tracked.erase (h : Tracked d recs s) (hg : g ∈ s.segments) (hr : reclaimable s g = true)
    {segments : List ZjSegment} (hsub : segments.Sublist s.segments)
    (hrest : ∀ x ∈ s.segments, x.id ≠ g.id → x ∈ segments) {id : Nat}
    (hid : id ≠ 0 → id = s.writerId ∧ id ≠ g.id) :
    Tracked { d with disk := d.disk.erase g.id } (fun k => if k = g.id then [] else recs k)
      { s with segments := segments, writerId := id } where
  sorted := h.sorted.sublist hsub
  known x hx := h.known x (hsub.subset hx)
  listed k hk := by
    split_ifs at hk with hkg
    · exact absurd rfl hk
    · obtain ⟨x, hx, rfl⟩ := h.listed k hk
      exact ⟨x, hrest x hx hkg, rfl⟩
  faithful x hx f hf := by
    obtain ⟨h1, h2, h3⟩ := h.faithful x (hsub.subset hx) f (Disk.lookup_erase_some hf)
    refine ⟨h1, h2, fun hne => h3 ?_⟩
    split_ifs at hne
    · exact absurd rfl hne
    · exact hne
  missing x hx hnone := by
    by_cases hx' : x.id = g.id
    · -- A segment is determined by its id, and this one has nothing to read.
      obtain rfl : x = g := segment_eq h.sorted (hsub.subset hx) hg hx'
      simp only [reclaimable, Bool.or_eq_true, Bool.and_eq_true, decide_eq_true_eq] at hr
      rcases hr with ((hr | ⟨hv, hr⟩) | hr) | ⟨hr, hle⟩
      · exact .inr (hr ▸ Nat.zero_le _)
      · refine .inr ?_
        rw [hr, offsetIn]
        split_ifs with hcur
        · exact (h.inside x hg hcur).2 hv
        · exact le_rfl
      · exact .inl hr
      · exact .inr (by rw [offsetIn, if_pos hr]; exact hle)
    · exact h.missing x (hsub.subset hx) (by rwa [AList.lookup_erase_ne hx'] at hnone)
  cursor := h.cursor
  inside x hx := h.inside x (hsub.subset hx)
  writing h0 := by
    obtain ⟨rfl, hne⟩ := hid h0
    obtain ⟨x, hx, hxid, hv⟩ := (h.writing h0).listed
    obtain ⟨f, hf, hh⟩ := (h.writing h0).file
    refine ⟨⟨x, hrest x hx (hxid ▸ hne), hxid, hv⟩, ⟨f, ?_, ?_⟩,
      fun y hy => (h.writing h0).newest y (hsub.subset hy), (h.writing h0).reached,
      (h.writing h0).log⟩
    · exact (AList.lookup_erase_ne hne).trans hf
    · simpa only [hne, if_false] using hh
  counting := h.counting

end Reclaim

lemma wp_reclaim_inv (h : Inv V whole kept settled w) :
    Prog.ewp (fun _ => Inv V whole kept settled) (fun _ => Inv V whole kept settled)
      (Safe V whole kept settled) (zjStoreReclaimStep (π := π)) w := by
  simp only [zjStoreReclaimStep, Prog.ewp_bind, wp_getStore, Prog.ewp_ite, Prog.ewp_throw]
  refine ⟨fun _ => h, fun hready => ?_⟩
  cases hg : w.ram.segments.find? (reclaimable w.ram) with
  | none =>
    rw [Prog.ewp_throw]
    exact h
  | some g =>
    simp only [Bool.not_eq_true', Bool.not_eq_false] at hready
    obtain ⟨recs, hs, ht⟩ := h
    have ht := ht hready
    have hmem := List.mem_of_find?_eq_some hg
    have hr := List.find?_some hg
    have hsafe : Safe V whole kept settled (w.onDisk fun d => d.erase g.id) :=
      ⟨_, hs.erase (hs.covered_of_reclaimable ht hmem hr)⟩
    have hid : ∀ {id}, id = (if w.ram.writerId = g.id then 0 else w.ram.writerId) → id ≠ 0 →
        id = w.ram.writerId ∧ id ≠ g.id := by
      rintro _ rfl h0
      split_ifs at h0 ⊢ with hw
      · exact absurd rfl h0
      · exact ⟨rfl, hw⟩
    simp only [Prog.ewp_bind, wp_setStore, wp_perform, wp_unlink, Prog.ewp_ite, wp_failure,
      Bool.not_true, Bool.not_false, Bool.false_eq_true, false_imp_iff, true_imp_iff,
      not_true_eq_false, not_false_eq_true, true_and, and_true]
    refine ⟨⟨_, hs.erase (hs.covered_of_reclaimable ht hmem hr), fun _ => ?_⟩,
      ⟨⟨recs, hs, fun _ => ?_⟩, _, hs.erase (hs.covered_of_reclaimable ht hmem hr), fun _ => ?_⟩,
      ⟨recs, hs⟩, hsafe⟩
    · refine ht.erase hmem hr List.eraseP_sublist ?_ (hid rfl)
      exact fun x hx hne => mem_eraseP_of_find? hg hx fun hxg => hne (hxg ▸ rfl)
    · exact (ht.stopWriting fun h0 => (hid rfl h0).1).relabel _ _ _ _
    · exact (ht.erase hmem hr (List.Sublist.refl _) (fun x hx _ => hx) (hid rfl)).relabel _ _ _ _

end Journal

end ZoneLite
