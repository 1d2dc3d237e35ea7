import AutoAttn.Zkt.Custody

/-!
# Custody of receipts

A receipt is written once. Settling an item again finds the receipt that it has, and an identity that is used
again for other content is kept as an exception.
-/

namespace Zkt.Custody

open Checks

variable {codec : Codec} {db db' : Db} {terminal : Option Terminal} {source : Source} {now index : Nat} {raw : Json}

/-! ### What each part changes -/

section Parts

variable {receipt : Receipt} {parsed : Option Parsed} {value : Option Observation} {workId : Nat}
  {occurrence : Except String (Option String)}

/-- The receipt of an item is the one stored, or a new one. -/
lemma settleReceipt_cases (codec : Codec) (terminal : Option Terminal) (db : Db) (raw : Json) :
    (∃ r ∈ db.receipts, r.observationId = codec.identity raw ∧ r.payloadDigest = codec.digest raw ∧
      settleReceipt codec terminal db raw = (db, r, true)) ∨
    (∀ r ∈ db.receipts, r.observationId = codec.identity raw → r.payloadDigest ≠ codec.digest raw) ∧
      ∃ error, ((∃ r ∈ db.receipts, r.observationId = codec.identity raw) → error = some "CAPTURE_IDENTITY_REUSED") ∧
        ((∀ r ∈ db.receipts, r.observationId ≠ codec.identity raw) → error = itemError terminal (codec.parse raw)) ∧
        settleReceipt codec terminal db raw =
          ({ db with receipts := db.receipts.insert (newReceipt codec raw error) },
            newReceipt codec raw error db.receipts.rows.length, false) := by
  rw [settleReceipt]
  cases hfind : db.receipts.rows.find? fun r =>
      r.observationId = codec.identity raw ∧ r.payloadDigest = codec.digest raw with
  | some r =>
    have hr := List.find?_some hfind
    simp only [decide_eq_true_eq] at hr
    exact .inl ⟨r, List.mem_of_find?_eq_some hfind, hr.1, hr.2, rfl⟩
  | none =>
    have hnone := List.find?_eq_none.1 hfind
    simp only [decide_eq_true_eq, not_and] at hnone
    refine .inr ⟨hnone, _, ?_, ?_, rfl⟩
    · intro hreused
      exact if_pos hreused
    · intro hfresh
      refine if_neg ?_
      rintro ⟨r, hr, hid⟩
      exact hfresh r hr hid

lemma associate_cases (terminal : Option Terminal) (source : Source) (db : Db) (receipt : Receipt)
    (parsed : Option Parsed) :
    ∃ links, (associate terminal source db receipt parsed).1 = { db with observationLinks := links } := by
  rw [associate.eq_def]
  split
  · split_ifs
    · split
      · exact ⟨_, rfl⟩
      · exact ⟨_, rfl⟩
    · exact ⟨_, rfl⟩
  · exact ⟨_, rfl⟩

@[simp] lemma associate_receipts :
    (associate terminal source db receipt parsed).1.receipts = db.receipts := by
  obtain ⟨links, h⟩ := associate_cases terminal source db receipt parsed
  rw [h]

@[simp] lemma associate_works : (associate terminal source db receipt parsed).1.works = db.works := by
  obtain ⟨links, h⟩ := associate_cases terminal source db receipt parsed
  rw [h]

@[simp] lemma associate_workReceipts :
    (associate terminal source db receipt parsed).1.workReceipts = db.workReceipts := by
  obtain ⟨links, h⟩ := associate_cases terminal source db receipt parsed
  rw [h]

/-- A new link is for a new row or for one with the same key. -/
lemma attachNew_cases (now : Nat) (db : Db) (receipt : Receipt) (value : Option Observation)
    (fragment : Option PacketFragment) :
    (∀ work ∈ db.works, work.workKey ≠ workKey receipt fragment) ∧
      attachNew now db receipt value fragment =
        ({ db with
            works := db.works.insert (newWork now receipt value fragment)
            workReceipts := db.workReceipts ++ [workReceipt db.works.rows.length receipt value fragment] },
          db.works.rows.length) ∨
    ∃ work ∈ db.works, work.workKey = workKey receipt fragment ∧
      attachNew now db receipt value fragment =
        ({ db with
            works := db.works.put (addEvidence now receipt fragment work)
            workReceipts := db.workReceipts ++ [workReceipt work.id receipt value fragment] }, work.id) := by
  rw [attachNew]
  cases hwork : db.works.rows.find? (·.workKey = workKey receipt fragment) with
  | none =>
    refine .inl ⟨fun work hmem => ?_, rfl⟩
    simpa using List.find?_eq_none.1 hwork work hmem
  | some work => exact .inr ⟨work, List.mem_of_find?_eq_some hwork, by simpa using List.find?_some hwork, rfl⟩

/-- The receipt is linked already, or it is linked now. -/
lemma attachWork_cases (now : Nat) (db : Db) (receipt : Receipt) (value : Option Observation) :
    (∃ link ∈ db.workReceipts, link.receiptId = receipt.id ∧ attachWork now db receipt value = (db, link.workId)) ∨
    (∀ link ∈ db.workReceipts, link.receiptId ≠ receipt.id) ∧ attachWork now db receipt value =
      attachNew now db receipt (readable receipt value) ((readable receipt value).bind Observation.fragment) := by
  rw [attachWork]
  cases hlink : db.workReceipts.find? (·.receiptId = receipt.id) with
  | some link => exact .inl ⟨link, List.mem_of_find?_eq_some hlink, by simpa using List.find?_some hlink, rfl⟩
  | none => exact .inr ⟨by simpa using hlink, rfl⟩

@[simp] lemma attachWork_receipts : (attachWork now db receipt value).1.receipts = db.receipts := by
  obtain ⟨link, -, -, h⟩ | ⟨-, h⟩ := attachWork_cases now db receipt value
  · rw [h]
  · rw [h]
    obtain ⟨-, h⟩ | ⟨work, -, -, h⟩ := attachNew_cases now db receipt (readable receipt value)
      ((readable receipt value).bind Observation.fragment) <;> rw [h]

@[simp] lemma holdFailed_receipts : (holdFailed db workId occurrence).receipts = db.receipts := by
  rw [holdFailed.eq_def]
  split
  · rfl
  · split <;> rfl

@[simp] lemma holdFailed_workReceipts : (holdFailed db workId occurrence).workReceipts = db.workReceipts := by
  rw [holdFailed.eq_def]
  split
  · rfl
  · split <;> rfl

end Parts

/-! ### The receipts -/

/-- What holds of the receipts after each item. -/
structure Stored (codec : Codec) (receipts : Table Receipt) : Prop where
  stored : ∀ r ∈ receipts, r.observationId = codec.identity r.protectedObservation ∧
    r.payloadDigest = codec.digest r.protectedObservation
  unique : ∀ r ∈ receipts, ∀ r' ∈ receipts, r.observationId = r'.observationId →
    r.payloadDigest = r'.payloadDigest → r = r'
  reused : ∀ r ∈ receipts, ∀ r' ∈ receipts, r.observationId = r'.observationId → r.id < r'.id →
    r'.disposition = .preservedException

lemma mem_insert_newReceipt {receipts : Table Receipt} {error : Option String} {r : Receipt} :
    r ∈ receipts.insert (newReceipt codec raw error) ↔ r ∈ receipts ∨ r = newReceipt codec raw error receipts.rows.length :=
  Table.mem_insert

lemma mem_settleReceipt {r : Receipt} (hr : r ∈ db.receipts) :
    r ∈ (settleReceipt codec terminal db raw).1.receipts := by
  obtain ⟨r', -, -, -, h⟩ | ⟨-, error, -, -, h⟩ := settleReceipt_cases codec terminal db raw
  · rwa [h]
  · rw [h]
    exact mem_insert_newReceipt.2 (.inl hr)

/-- The receipt of an item is stored under its identity and digest. -/
lemma settleReceipt_stored (codec : Codec) (terminal : Option Terminal) (db : Db) (raw : Json) :
    (settleReceipt codec terminal db raw).2.1 ∈ (settleReceipt codec terminal db raw).1.receipts ∧
      (settleReceipt codec terminal db raw).2.1.observationId = codec.identity raw ∧
      (settleReceipt codec terminal db raw).2.1.payloadDigest = codec.digest raw := by
  obtain ⟨r, hr, hid, hdigest, h⟩ | ⟨-, error, -, -, h⟩ := settleReceipt_cases codec terminal db raw
  · rw [h]
    exact ⟨hr, hid, hdigest⟩
  · rw [h]
    exact ⟨mem_insert_newReceipt.2 (.inr rfl), rfl, rfl⟩

lemma Stored.settleReceipt (h : Stored codec db.receipts) :
    Stored codec (settleReceipt codec terminal db raw).1.receipts := by
  obtain ⟨r, -, -, -, hcase⟩ | ⟨hnew, error, hreused, -, hcase⟩ := settleReceipt_cases codec terminal db raw
  · rwa [hcase]
  rw [hcase]
  refine ⟨?_, ?_, ?_⟩
  · intro r hr
    obtain hr | rfl := mem_insert_newReceipt.1 hr
    · exact h.stored r hr
    · exact ⟨rfl, rfl⟩
  · intro r hr r' hr' hid hdigest
    obtain hr | rfl := mem_insert_newReceipt.1 hr <;> obtain hr' | rfl := mem_insert_newReceipt.1 hr'
    · exact h.unique r hr r' hr' hid hdigest
    · exact absurd hdigest (hnew r hr hid)
    · exact absurd hdigest.symm (hnew r' hr' hid.symm)
    · rfl
  · intro r hr r' hr' hid hlt
    obtain hr | rfl := mem_insert_newReceipt.1 hr <;> obtain hr' | rfl := mem_insert_newReceipt.1 hr'
    · exact h.reused r hr r' hr' hid hlt
    · have herror : error = some "CAPTURE_IDENTITY_REUSED" := hreused ⟨r, hr, hid⟩
      simp [newReceipt, herror]
    · -- The new receipt has the greatest number.
      exact absurd (Table.rowId_lt hr') hlt.not_gt
    · exact absurd hlt (lt_irrefl _)

/-! ### The links -/

/-- Each receipt is linked to a work row. -/
structure Linked (db : Db) : Prop where
  linked : ∀ r ∈ db.receipts, ∃ link ∈ db.workReceipts, link.receiptId = r.id
  works : ∀ link ∈ db.workReceipts, link.workId < db.works.rows.length

section Linked

variable {receipt : Receipt} {value : Option Observation} {workId : Nat} {occurrence : Except String (Option String)}

lemma length_holdFailed : (holdFailed db workId occurrence).works.rows.length = db.works.rows.length := by
  rw [holdFailed.eq_def]
  split
  · rfl
  · split
    · exact Table.length_put _ _
    · rfl

/-- Links stay, and the receipt has one. -/
lemma attachWork_workReceipts (now : Nat) (db : Db) (receipt : Receipt) (value : Option Observation) :
    db.workReceipts ⊆ (attachWork now db receipt value).1.workReceipts ∧
      ∃ link ∈ (attachWork now db receipt value).1.workReceipts, link.receiptId = receipt.id := by
  obtain ⟨link, hlink, hid, h⟩ | ⟨-, h⟩ := attachWork_cases now db receipt value
  · rw [h]
    exact ⟨List.Subset.refl _, link, hlink, hid⟩
  · rw [h]
    obtain ⟨-, h⟩ | ⟨work, -, -, h⟩ := attachNew_cases now db receipt (readable receipt value)
      ((readable receipt value).bind Observation.fragment)
    all_goals
      rw [h]
      exact ⟨List.subset_append_left _ _, _, List.mem_append_right _ (List.mem_singleton_self _), rfl⟩

lemma attachWork_works (hworks : ∀ link ∈ db.workReceipts, link.workId < db.works.rows.length) :
    ∀ link ∈ (attachWork now db receipt value).1.workReceipts,
      link.workId < (attachWork now db receipt value).1.works.rows.length := by
  obtain ⟨link, -, -, h⟩ | ⟨-, h⟩ := attachWork_cases now db receipt value
  · rwa [h]
  rw [h]
  obtain ⟨-, h⟩ | ⟨work, hwork, -, h⟩ := attachNew_cases now db receipt (readable receipt value)
    ((readable receipt value).bind Observation.fragment)
  · rw [h]
    refine List.forall_mem_append.2 ⟨fun link hlink => ?_, List.forall_mem_singleton.2 ?_⟩
    · exact (hworks link hlink).trans (by simp [Table.insert])
    · simp [Table.insert, workReceipt]
  · rw [h]
    simp only [Table.length_put]
    exact List.forall_mem_append.2 ⟨hworks, List.forall_mem_singleton.2 (Table.rowId_lt hwork)⟩

end Linked

/-! ### One item -/

/-- The receipt of the item. -/
abbrev itemReceipt (codec : Codec) (terminal : Option Terminal) (db : Db) (raw : Json) : Receipt :=
  (settleReceipt codec terminal db raw).2.1

/-- The tables with the receipt of the item, and its association. -/
abbrev itemAssociated (codec : Codec) (terminal : Option Terminal) (source : Source) (db : Db) (raw : Json) :
    Db × Except String (Option String) :=
  associate terminal source (settleReceipt codec terminal db raw).1 (itemReceipt codec terminal db raw)
    (codec.parse raw)

/-- The tables with the work of the item, and its row. -/
abbrev itemAttached (codec : Codec) (terminal : Option Terminal) (source : Source) (now : Nat) (db : Db)
    (raw : Json) : Db × Nat :=
  attachWork now (itemAssociated codec terminal source db raw).1 (itemReceipt codec terminal db raw)
    ((codec.parse raw).bind Parsed.observation?)

lemma settleItem_fst : (settleItem codec terminal source now db index raw).1 =
    holdFailed (itemAttached codec terminal source now db raw).1 (itemAttached codec terminal source now db raw).2
      (itemAssociated codec terminal source db raw).2 := rfl

lemma settleItem_receipts : (settleItem codec terminal source now db index raw).1.receipts =
    (settleReceipt codec terminal db raw).1.receipts := by
  simp [settleItem]

lemma settleReceipt_works : (settleReceipt codec terminal db raw).1.works = db.works := by
  obtain ⟨r, -, -, -, h⟩ | ⟨-, error, -, -, h⟩ := settleReceipt_cases codec terminal db raw <;> rw [h]

lemma settleReceipt_workReceipts : (settleReceipt codec terminal db raw).1.workReceipts = db.workReceipts := by
  obtain ⟨r, -, -, -, h⟩ | ⟨-, error, -, -, h⟩ := settleReceipt_cases codec terminal db raw <;> rw [h]

/-- Only the receipt of the item is new. -/
lemma mem_settleReceipt_iff {r : Receipt} : r ∈ (settleReceipt codec terminal db raw).1.receipts ↔
    r ∈ db.receipts ∨ r = itemReceipt codec terminal db raw := by
  obtain ⟨r', hr', -, -, h⟩ | ⟨-, error, -, -, h⟩ := settleReceipt_cases codec terminal db raw
  · rw [itemReceipt, h]
    exact ⟨.inl, fun hr => hr.elim id (· ▸ hr')⟩
  · rw [itemReceipt, h]
    exact mem_insert_newReceipt

lemma Linked.settleItem (h : Linked db) : Linked (settleItem codec terminal source now db index raw).1 := by
  obtain ⟨hsub, hlinked⟩ := attachWork_workReceipts now (itemAssociated codec terminal source db raw).1
    (itemReceipt codec terminal db raw) ((codec.parse raw).bind Parsed.observation?)
  have hlinks : (itemAssociated codec terminal source db raw).1.workReceipts = db.workReceipts := by
    rw [associate_workReceipts, settleReceipt_workReceipts]
  have hworks : (itemAssociated codec terminal source db raw).1.works = db.works := by
    rw [associate_works, settleReceipt_works]
  constructor
  · intro r hr
    rw [settleItem_receipts, mem_settleReceipt_iff] at hr
    rw [settleItem_fst, holdFailed_workReceipts]
    obtain hr | rfl := hr
    · obtain ⟨link, hlink, hid⟩ := h.linked r hr
      exact ⟨link, hsub (hlinks ▸ hlink), hid⟩
    · exact hlinked
  · rw [settleItem_fst, holdFailed_workReceipts, length_holdFailed]
    refine attachWork_works ?_
    rw [hlinks, hworks]
    exact h.works

/-! ### Runs -/

lemma Step.receipts (h : Step codec db db') :
    db'.receipts = db.receipts ∨ ∃ terminal raw, db'.receipts = (settleReceipt codec terminal db raw).1.receipts := by
  cases h with
  | settle terminal source now index raw => exact .inr ⟨terminal, raw, settleItem_receipts⟩
  | inspect inspection work hwork => exact .inl rfl

lemma Step.stored (h : Step codec db db') (hstored : Stored codec db.receipts) : Stored codec db'.receipts := by
  obtain h | ⟨terminal, raw, h⟩ := h.receipts
  · rwa [h]
  · rw [h]
    exact hstored.settleReceipt

/-- A receipt never changes. -/
lemma Steps.mem_receipts (h : Steps codec db db') {r : Receipt} (hr : r ∈ db.receipts) : r ∈ db'.receipts := by
  induction h with
  | refl => exact hr
  | tail _ hstep ih =>
    obtain h | ⟨terminal, raw, h⟩ := hstep.receipts
    · rwa [h]
    · rw [h]
      exact mem_settleReceipt ih

lemma Step.linked (h : Step codec db db') (hlinked : Linked db) : Linked db' := by
  cases h with
  | settle terminal source now index raw => exact hlinked.settleItem
  | inspect inspection work hwork =>
    exact ⟨hlinked.linked, fun link hlink => (hlinked.works link hlink).trans_eq (Table.length_put _ _).symm⟩

lemma Reachable.stored (h : Reachable codec db) : Stored codec db.receipts := by
  induction h with
  | refl => constructor <;> simp [Db.empty]
  | tail _ hstep ih => exact hstep.stored ih

lemma Reachable.linked (h : Reachable codec db) : Linked db := by
  induction h with
  | refl => constructor <;> simp [Db.empty]
  | tail _ hstep ih => exact hstep.linked ih

/-! ### Items settled again -/

lemma parse_congr (hcodec : codec.Unordered) {a b : Json} (h : a.sortKeys = b.sortKeys) :
    codec.parse a = codec.parse b := by
  obtain ⟨hobservation, hexception⟩ := hcodec a b h
  have hkind := Json.get?_eq_str_congr h "item_type" "JOURNAL_EXCEPTION"
  simp only [Codec.parse, hkind, hobservation, hexception]

lemma identity_congr (hcodec : codec.Unordered) {a b : Json} (h : a.sortKeys = b.sortKeys) :
    codec.identity a = codec.identity b := by
  simp only [Codec.identity, Codec.digest, parse_congr hcodec h, h]

/-- An item that was settled finds its receipt. -/
lemma settleReceipt_replay (terminal : Option Terminal) (hcodec : codec.Unordered)
    (hstored : Stored codec db.receipts) {r : Receipt} (hr : r ∈ db.receipts)
    (h : r.protectedObservation.sortKeys = raw.sortKeys) :
    settleReceipt codec terminal db raw = (db, r, true) := by
  obtain ⟨hid, hdigest⟩ := hstored.stored r hr
  rw [identity_congr hcodec h] at hid
  rw [Codec.digest, h] at hdigest
  obtain ⟨r', hr', hid', hdigest', hcase⟩ | ⟨hnew, -⟩ := settleReceipt_cases codec terminal db raw
  · rw [hcase, hstored.unique r hr r' hr' (hid.trans hid'.symm) (hdigest.trans hdigest'.symm)]
  · exact absurd hdigest (hnew r hr hid)

/-- The result of an item that was settled is that of its receipt. -/
lemma settleItem_replay (source : Source) (now index : Nat) {r : Receipt}
    (h : settleReceipt codec terminal db raw = (db, r, true)) :
    (settleItem codec terminal source now db index raw).2.receiptId = r.id ∧
    (settleItem codec terminal source now db index raw).2.custody = r.disposition ∧
    (settleItem codec terminal source now db index raw).2.errorCode = r.errorCode ∧
    (settleItem codec terminal source now db index raw).2.replay = true ∧
    (settleItem codec terminal source now db index raw).1.receipts = db.receipts := by
  rw [settleItem_receipts]
  simp [settleItem, h]

/-- The row of a receipt that is linked already is left as it is, unless the association with the source fails. -/
def KeepsWork (terminal : Option Terminal) (source : Source) (db db' : Db) (r : Receipt) (parsed : Option Parsed) :
    Prop :=
  ∃ work ∈ db.works, (∃ link ∈ db.workReceipts, link.receiptId = r.id ∧ link.workId = work.id) ∧
    (db'.works = db.works ∨ ∃ reason, (associate terminal source db r parsed).2 = .error reason ∧
      db'.works = db.works.put { work.hold reason with nextAttemptAt := none })

lemma keepsWork_settleItem (source : Source) (now index : Nat) (hlinked : Linked db) {r : Receipt}
    (hr : r ∈ db.receipts) (hreceipt : settleReceipt codec terminal db raw = (db, r, true)) :
    (settleItem codec terminal source now db index raw).1.workReceipts = db.workReceipts ∧
      KeepsWork terminal source db (settleItem codec terminal source now db index raw).1 r (codec.parse raw) := by
  have hreceipts : itemReceipt codec terminal db raw = r := by rw [itemReceipt, hreceipt]
  have hdb : itemAssociated codec terminal source db raw = associate terminal source db r (codec.parse raw) := by
    rw [itemAssociated, itemReceipt, hreceipt]
  obtain ⟨link, hlink, hid, hattach⟩ | ⟨hnone, -⟩ := attachWork_cases now
    (itemAssociated codec terminal source db raw).1 (itemReceipt codec terminal db raw)
    ((codec.parse raw).bind Parsed.observation?)
  · rw [hdb, associate_workReceipts] at hlink
    rw [hreceipts] at hid
    obtain ⟨work, hwork, hworkId⟩ := Table.exists_of_lt (hlinked.works link hlink)
    have hget : db.works.get? link.workId = some work := Table.get?_eq_some.2 ⟨hwork, hworkId⟩
    rw [settleItem_fst, itemAttached, hattach, hdb, holdFailed_workReceipts, associate_workReceipts]
    refine ⟨rfl, work, hwork, ⟨link, hlink, hid, hworkId.symm⟩, ?_⟩
    cases hresult : (associate terminal source db r (codec.parse raw)).2 with
    | ok occurrence => exact .inl associate_works
    | error reason =>
      refine .inr ⟨reason, rfl, ?_⟩
      simp only [holdFailed, associate_works, hget]
  · obtain ⟨link, hlink, hid⟩ := hlinked.linked r hr
    refine absurd (hid.trans (congrArg Receipt.id hreceipts.symm)) (hnone link ?_)
    rw [hdb, associate_workReceipts]
    exact hlink

/-! ### Batches -/

/-- Each item of a batch has one result, in its turn. -/
lemma settleItems_spec (codec : Codec) (terminal : Option Terminal) (source : Nat → Source) (now : Nat → Nat)
    (items : List Json) (start : Nat) (db : Db) :
    (settleItems codec terminal source now db start items).2.length = items.length ∧
    Steps codec db (settleItems codec terminal source now db start items).1 ∧
    ∀ i raw, items[i]? = some raw → ∃ before, Steps codec db before ∧
      (settleItems codec terminal source now db start items).2[i]? =
        some (settleItem codec terminal (source (start + i)) (now (start + i)) before (start + i) raw).2 ∧
      Steps codec (settleItem codec terminal (source (start + i)) (now (start + i)) before (start + i) raw).1
        (settleItems codec terminal source now db start items).1 := by
  induction items generalizing start db with
  | nil => exact ⟨rfl, .refl, nofun⟩
  | cons raw items ih =>
    obtain ⟨hlength, hsteps, hitems⟩ :=
      ih (start + 1) (settleItem codec terminal (source start) (now start) db start raw).1
    have hfirst : Step codec db (settleItem codec terminal (source start) (now start) db start raw).1 :=
      .settle db terminal (source start) (now start) start raw
    refine ⟨by simpa [settleItems] using hlength, hsteps.head hfirst, ?_⟩
    intro i raw' hraw'
    cases i with
    | zero =>
      obtain rfl : raw = raw' := by simpa using hraw'
      exact ⟨db, .refl, rfl, hsteps⟩
    | succ i =>
      obtain ⟨before, hbefore, hresult, hafter⟩ := hitems i raw' (by simpa using hraw')
      have hindex : start + 1 + i = start + (i + 1) := by omega
      rw [hindex] at hresult hafter
      exact ⟨before, hbefore.head hfirst, hresult, hafter⟩

/-- The result of an item is that of its receipt. -/
lemma settleItem_result (codec : Codec) (terminal : Option Terminal) (source : Source) (now : Nat) (db : Db)
    (index : Nat) (raw : Json) :
    ∃ r ∈ (settleItem codec terminal source now db index raw).1.receipts,
      r.observationId = codec.identity raw ∧ r.payloadDigest = codec.digest raw ∧
      r.id = (settleItem codec terminal source now db index raw).2.receiptId ∧
      r.disposition = (settleItem codec terminal source now db index raw).2.custody ∧
      r.errorCode = (settleItem codec terminal source now db index raw).2.errorCode := by
  obtain ⟨hr, hid, hdigest⟩ := settleReceipt_stored codec terminal db raw
  rw [settleItem_receipts]
  exact ⟨_, hr, hid, hdigest, rfl, rfl, rfl⟩

lemma settleObservations_eq_ok {connector : Connector} {source : Nat → Source} {now : Nat → Nat} {payload : Json}
    {results : List ItemResult} (h : settleObservations codec connector source now db payload = .ok (db', results)) :
    ∃ items, batchItems payload = some items ∧
      settleItems codec connector.zktDevice source now db 0 items = (db', results) := by
  simp only [settleObservations, bind_eq_ok, refuse_eq_ok, require_eq_ok, pure_eq_ok, exists_const] at h
  obtain ⟨-, items, hitems, -, -, -, hresult⟩ := h
  exact ⟨items, hitems, hresult⟩

/-- Receipts are written once, items that are settled again change nothing, and an identity that is used again for
another payload is kept as an exception. -/
theorem settlement_idempotent (hcodec : codec.Unordered) (h : Reachable codec db) :
    (∀ db', Steps codec db db' → ∀ r ∈ db.receipts, r ∈ db'.receipts) ∧
    (∀ terminal source now index raw, ∀ r ∈ db.receipts, r.protectedObservation.sortKeys = raw.sortKeys →
      (settleItem codec terminal source now db index raw).2.receiptId = r.id ∧
      (settleItem codec terminal source now db index raw).2.custody = r.disposition ∧
      (settleItem codec terminal source now db index raw).2.errorCode = r.errorCode ∧
      (settleItem codec terminal source now db index raw).2.replay = true ∧
      (settleItem codec terminal source now db index raw).1.receipts = db.receipts ∧
      (settleItem codec terminal source now db index raw).1.workReceipts = db.workReceipts ∧
      KeepsWork terminal source db (settleItem codec terminal source now db index raw).1 r (codec.parse raw)) ∧
    (∀ r₁ ∈ db.receipts, ∀ r₂ ∈ db.receipts, r₁.observationId = r₂.observationId →
      r₁.payloadDigest ≠ r₂.payloadDigest →
      r₁.id < r₂.id ∧ r₂.disposition = .preservedException ∨ r₂.id < r₁.id ∧ r₁.disposition = .preservedException) ∧
    (∀ connector source now payload db' results,
      settleObservations codec connector source now db payload = .ok (db', results) →
      ∃ items, batchItems payload = some items ∧ results.length = items.length ∧ Steps codec db db' ∧
        ∀ i raw, items[i]? = some raw → ∃ before result, Steps codec db before ∧
          (settleItem codec connector.zktDevice (source i) (now i) before i raw).2 = result ∧
          results[i]? = some result ∧ result.index = i ∧
          ∃ r ∈ db'.receipts, r.observationId = codec.identity raw ∧ r.payloadDigest = codec.digest raw ∧
            r.id = result.receiptId ∧ r.disposition = result.custody ∧ r.errorCode = result.errorCode) := by
  refine ⟨fun db' hsteps r hr => hsteps.mem_receipts hr, ?_, ?_, ?_⟩
  · intro terminal source now index raw r hr hsame
    have hreplay := settleReceipt_replay terminal hcodec h.stored hr hsame
    obtain ⟨hid, hcustody, herror, hagain, hreceipts⟩ := settleItem_replay source now index hreplay
    exact ⟨hid, hcustody, herror, hagain, hreceipts, keepsWork_settleItem source now index h.linked hr hreplay⟩
  · intro r₁ hr₁ r₂ hr₂ hid hdigest
    obtain hlt | heq | hlt := Nat.lt_trichotomy r₁.id r₂.id
    · exact .inl ⟨hlt, h.stored.reused r₁ hr₁ r₂ hr₂ hid hlt⟩
    · exact absurd (congrArg Receipt.payloadDigest (Table.eq_of_rowId hr₁ hr₂ heq)) hdigest
    · exact .inr ⟨hlt, h.stored.reused r₂ hr₂ r₁ hr₁ hid.symm hlt⟩
  · intro connector source now payload db' results hok
    obtain ⟨items, hitems, hsettle⟩ := settleObservations_eq_ok hok
    obtain ⟨hlength, hsteps, hresults⟩ := settleItems_spec codec connector.zktDevice source now items 0 db
    simp only [hsettle, Nat.zero_add] at hlength hsteps hresults
    refine ⟨items, hitems, hlength, hsteps, fun i raw hraw => ?_⟩
    obtain ⟨before, hbefore, hresult, hafter⟩ := hresults i raw hraw
    obtain ⟨r, hr, hr'⟩ := settleItem_result codec connector.zktDevice (source i) (now i) before i raw
    exact ⟨before, _, hbefore, rfl, hresult, rfl, r, hafter.mem_receipts hr, hr'⟩

/-- A validation that reads the identity only. -/
def sampleCodec : Codec where
  hash value := ((value.get? "note").bind Json.str?).getD ""
  size _ := some 64
  sha256 := id
  observation raw := ((raw.get? "observation_id").bind Json.str?).map fun id =>
    { observationId := id, terminalSerial := "ZK-1", captureEpoch := "epoch", captureSequence := 1, raw := [1]
      rawDigest := [1], rawFormat := .unknown, decoderProfile := "profile", decoderVersion := "1", occurrence := none
      fragment_valid := nofun, occurrence_source := fun h => absurd rfl h }
  journalException _ := none

def sampleSource : Source := ⟨fun _ => none, fun _ => .error "SOURCE_OCCURRENCE_BINDING"⟩

def sampleItem : Json := .obj [("observation_id", .str "o"), ("note", .str "a")]

lemma sampleCodec_unordered : sampleCodec.Unordered := by
  intro a b h
  refine ⟨?_, rfl⟩
  have hid : (a.get? "observation_id").bind Json.str? = (b.get? "observation_id").bind Json.str? := by
    ext s
    rw [Json.bind_str?_eq_some, Json.bind_str?_eq_some]
    exact Json.get?_eq_str_congr h "observation_id" s
  simp only [sampleCodec, hid]

/-- The item comes again with its members in another order. -/
theorem settlement_idempotent_reordered :
    (settleItem sampleCodec none sampleSource 1 (settleItem sampleCodec none sampleSource 0 Db.empty 0 sampleItem).1 0
      (.obj [("note", .str "a"), ("observation_id", .str "o")])).2.replay = true := by
  have hreach : Reachable sampleCodec (settleItem sampleCodec none sampleSource 0 Db.empty 0 sampleItem).1 :=
    .single (.settle _ _ _ _ _ _)
  have hmem : newReceipt sampleCodec sampleItem (some "TERMINAL_BINDING_MISMATCH") 0 ∈
      (settleItem sampleCodec none sampleSource 0 Db.empty 0 sampleItem).1.receipts := by
    rw [settleItem_receipts]
    exact List.mem_singleton_self _
  exact ((settlement_idempotent sampleCodec_unordered hreach).2.1 none sampleSource 1 0 _ _ hmem (by decide)).2.2.2.1

end Zkt.Custody
