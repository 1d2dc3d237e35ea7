import AutoAttn.Checks
import AutoAttn.Reconciliation.Run

/-!
# Canonical rows of the ledger

What the handlers do to the reads they keep: which ordinals have a canonical row, and why an
ordinal never has two.
-/

namespace Reconciliation

variable {D : Type} [DecidableEq D]

/-! ### Tables of reads -/

/-- No ordinal of a ledger has two canonical rows. -/
def Unique (t : Table (Manifest D)) : Prop :=
  ∀ m ∈ t, ∀ m' ∈ t, ∀ g e o, m.Canonical g e o → m'.Canonical g e o → m = m'

/-- The ordinal has a canonical row. -/
def Covered (t : Table (Manifest D)) (g e o : Nat) : Prop := ∃ m ∈ t, m.Canonical g e o

/-- The table got new rows and lost none, and the unique index was obeyed. -/
structure Grows (New : Manifest D → Prop) (t t' : Table (Manifest D)) : Prop where
  kept : ∀ m ∈ t, m ∈ t'
  new : ∀ m ∈ t', m ∈ t ∨ New m
  unique : Unique t → Unique t'

omit [DecidableEq D] in
lemma Grows.refl {New : Manifest D → Prop} (t : Table (Manifest D)) : Grows New t t :=
  ⟨fun _ h => h, fun _ h => .inl h, id⟩

omit [DecidableEq D] in
lemma Grows.trans {New : Manifest D → Prop} {t t' t'' : Table (Manifest D)} (h : Grows New t t')
    (h' : Grows New t' t'') : Grows New t t'' where
  kept m hm := h'.kept m (h.kept m hm)
  new m hm := (h'.new m hm).elim (h.new m) .inr
  unique hu := h'.unique (h.unique hu)

omit [DecidableEq D] in
lemma Grows.mono {New New' : Manifest D → Prop} {t t' : Table (Manifest D)} (h : Grows New t t')
    (himp : ∀ m, New m → New' m) : Grows New' t t' :=
  ⟨h.kept, fun m hm => (h.new m hm).imp_right (himp m), h.unique⟩

omit [DecidableEq D] in
lemma Grows.covered {New : Manifest D → Prop} {t t' : Table (Manifest D)} (h : Grows New t t')
    {g e o : Nat} : Covered t g e o → Covered t' g e o := by
  rintro ⟨m, hm, hc⟩
  exact ⟨m, h.kept m hm, hc⟩

omit [DecidableEq D] in
omit [DecidableEq D] in
/-- Adding a read succeeds exactly when both unique constraints allow it. -/
lemma addManifest_eq_ok {db db' : Db D} {mk : Nat → Manifest D}
    {h : ∀ i, Row.rowId (mk i) = i} :
    db.addManifest mk h = .ok db' ↔
      (let m := mk db.manifests.rows.length
       ¬ (m.jobId ≠ none ∧ ∃ x ∈ db.manifests.rows,
          x.jobId = m.jobId ∧ x.generation = m.generation ∧ x.ordinal = m.ordinal) ∧
       ¬ (m.canonicalSource = true ∧ Covered db.manifests m.generation m.sourceEpochId m.ordinal))
      ∧ db' = { db with manifests := db.manifests.insert mk h } := by
  simp only [Db.addManifest, bind_eq_ok, refuse_eq_ok, pure_eq_ok]
  constructor
  · rintro ⟨-, h₁, -, h₂, rfl⟩
    exact ⟨⟨h₁, h₂⟩, rfl⟩
  · rintro ⟨⟨h₁, h₂⟩, rfl⟩
    exact ⟨(), h₁, (), h₂, rfl⟩

omit [DecidableEq D] in
/-- A read that the unique index let in is the only canonical row of its ordinal. -/
lemma grows_of_addManifest {db db' : Db D} {mk : Nat → Manifest D}
    {h : ∀ i, Row.rowId (mk i) = i} (hadd : db.addManifest mk h = .ok db') :
    Grows (fun m => m = mk db.manifests.rows.length) db.manifests db'.manifests := by
  obtain ⟨⟨-, hcanonical⟩, rfl⟩ := addManifest_eq_ok.mp hadd
  refine ⟨fun m hm => (Table.mem_insert (h := h)).mpr (.inl hm),
    fun m hm => (Table.mem_insert (h := h)).mp hm, ?_⟩
  have hclash : ∀ m ∈ db.manifests, ∀ g e o, m.Canonical g e o →
      ¬ (mk db.manifests.rows.length).Canonical g e o := by
    rintro m hm g e o hc ⟨hnew, rfl, rfl, rfl⟩
    exact hcanonical ⟨hnew, m, hm, hc⟩
  intro hunique m hm m' hm' g e o hc hc'
  rcases (Table.mem_insert (h := h)).mp hm with hm | rfl
  · rcases (Table.mem_insert (h := h)).mp hm' with hm' | rfl
    · exact hunique m hm m' hm' g e o hc hc'
    · exact absurd hc' (hclash m hm g e o hc)
  · rcases (Table.mem_insert (h := h)).mp hm' with hm' | rfl
    · exact absurd hc (hclash m' hm' g e o hc')
    · rfl

omit [DecidableEq D] in
lemma mem_of_addManifest {db db' : Db D} {mk : Nat → Manifest D}
    {h : ∀ i, Row.rowId (mk i) = i} (hadd : db.addManifest mk h = .ok db') :
    mk db.manifests.rows.length ∈ db'.manifests := by
  obtain ⟨-, rfl⟩ := addManifest_eq_ok.mp hadd
  exact (Table.mem_insert (h := h)).mpr (.inr rfl)

omit [DecidableEq D] in
/-- A read that neither constraint forbids is added, and covers its own ordinal besides those
that were covered. -/
lemma addManifest_free {db : Db D} {mk : Nat → Manifest D} {h : ∀ i, Row.rowId (mk i) = i}
    (hjob : ∀ x ∈ db.manifests, ∀ j, (mk db.manifests.rows.length).jobId = some j →
      x.jobId = some j → x.ordinal ≠ (mk db.manifests.rows.length).ordinal)
    (hcanonical : (mk db.manifests.rows.length).canonicalSource = true →
      ¬ Covered db.manifests (mk db.manifests.rows.length).generation
        (mk db.manifests.rows.length).sourceEpochId (mk db.manifests.rows.length).ordinal) :
    ∃ db', db.addManifest mk h = .ok db' := by
  refine ⟨_, addManifest_eq_ok.mpr ⟨⟨?_, fun hc => hcanonical hc.1 hc.2⟩, rfl⟩⟩
  rintro ⟨hsome, x, hx, hxjob, -, hordinal⟩
  obtain ⟨j, hj⟩ := Option.ne_none_iff_exists'.mp hsome
  exact hjob x hx j hj (hxjob.trans hj) hordinal

omit [DecidableEq D] in
/-- The row a lookup finds is the canonical row of its ordinal. -/
lemma sourceRow_eq_some {db : Db D} {g e o : Nat} {m : Manifest D}
    (h : db.sourceRow g e o = some m) : m ∈ db.manifests ∧ m.Canonical g e o :=
  ⟨List.mem_of_find?_eq_some h, by simpa using List.find?_some h⟩

omit [DecidableEq D] in
lemma sourceRow_eq_none {db : Db D} {g e o : Nat} :
    db.sourceRow g e o = none ↔ ¬ Covered db.manifests g e o := by
  simp only [Db.sourceRow, List.find?_eq_none, decide_eq_true_eq, Covered, not_exists, not_and]
  exact Iff.rfl

omit [DecidableEq D] in
/-- Retiring rows takes exactly them out of the canonical ledger. -/
lemma retire_all (settled : List (Manifest D)) (db : Db D) :
    ∃ t, settled.foldl Db.retire db = { db with manifests := t } ∧
      (∀ m ∈ t, m ∈ db.manifests ∨ ∃ prior ∈ settled, m = { prior with canonicalSource := false }) ∧
      (∀ m ∈ db.manifests, (∀ prior ∈ settled, m.id ≠ prior.id) → m ∈ t) ∧
      ∀ m ∈ t, (∃ prior ∈ settled, m.id = prior.id) → m.canonicalSource = false := by
  induction settled generalizing db with
  | nil => exact ⟨db.manifests, rfl, fun m hm => .inl hm, fun m hm _ => hm, by simp⟩
  | cons prior settled ih =>
    obtain ⟨t, heq, hrows, hkept, hretired⟩ := ih (db.retire prior)
    refine ⟨t, heq, fun m hm => ?_, fun m hm hne => ?_, fun m hm => ?_⟩
    · rcases hrows m hm with hm | ⟨x, hx, rfl⟩
      · rcases Table.of_mem_put hm with rfl | ⟨hm, -⟩
        · exact .inr ⟨prior, List.mem_cons_self, rfl⟩
        · exact .inl hm
      · exact .inr ⟨x, List.mem_cons_of_mem _ hx, rfl⟩
    · refine hkept m (Table.mem_put_of_ne hm ?_) fun x hx => hne x (List.mem_cons_of_mem _ hx)
      exact hne prior List.mem_cons_self
    · rintro ⟨x, hx, hid⟩
      rcases List.mem_cons.mp hx with rfl | hx
      · rcases hrows m hm with hm | ⟨y, -, rfl⟩
        · rcases Table.of_mem_put hm with rfl | ⟨-, hne⟩
          · rfl
          · exact absurd hid hne
        · rfl
      · exact hretired m hm ⟨x, hx, hid⟩

/-! ### Attendance leaves the ledger alone -/

/-- Ingestion stores the punches it does not hold and changes nothing else. -/
lemma ingestAttendance_eq (env : Env D) (db : Db D) (events : List (AttendanceEventIn D)) :
    ∃ attendance, ingestAttendance env db events = { db with attendance } := by
  induction events generalizing db with
  | nil => exact ⟨_, rfl⟩
  | cons event events ih =>
    rw [ingestAttendance]
    split_ifs with h
    · exact ih db
    · obtain ⟨attendance, heq⟩ := ih { db with attendance := _ }
      exact ⟨attendance, heq⟩

/-- Binding a chunk's events to its terminal changes attendance rows at most. -/
lemma boundSourceAttendance_ok {env : Env D} {db : Db D} {serial : Option String}
    {records : List (SourceRecord D)} {link : Bool} {bound : BoundAttendance D}
    (h : boundSourceAttendance env db serial records link = .ok bound) :
    (∃ attendance, bound.db = { db with attendance }) ∧
      bindEvents (serial.getD "") records = .ok bound.events := by
  simp only [boundSourceAttendance, bind_eq_ok] at h
  obtain ⟨-, -, events, hevents, h⟩ := h
  split_ifs at h with hlink
  · cases h
    exact ⟨⟨db.attendance, rfl⟩, hevents⟩
  · simp only [bind_eq_ok] at h
    obtain ⟨-, -, h⟩ := h
    split at h
    · cases h
    · cases h
      exact ⟨⟨_, rfl⟩, hevents⟩

end Reconciliation
