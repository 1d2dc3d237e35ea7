import Mathlib.Data.Fintype.Pigeonhole
import Mathlib.Data.Set.Finite.List
import AutoAttn.AttendanceBatch.Properties

/-!
# What the evidence of a batch keeps

A quarantined item stores its row encrypted, together with the context of the batch, and the digest of the row.
Rows come back from this pair unless they use the key of the context themselves: that member is overwritten, and
a digest of fixed length cannot make up for it.
-/

namespace AttendanceBatch

variable {E : Type} {env : Env E}

/-! ### Evidence of one row -/

/-- A row without a member under the key of the context. -/
def HasNoContext (raw : Json) : Prop := raw.get? contextKey = none

/-- A row that its stored pair gives back: no member of it is overwritten, and if it is no object then its digest
tells it from its wrapper. -/
def Kept (env : Env E) (raw : Json) : Prop :=
  HasNoContext raw ∧ (raw.isObj = false → env.digest (.obj [("value", raw)]) ≠ env.digest raw)

/-- The row or the payload that evidence and digest stand for. -/
def recover (env : Env E) : Json → String → Option Json
  | .obj members, digest =>
    if members.any (·.1 = contextKey) then
      let rest := members.filter (·.1 ≠ contextKey)
      if env.digest (.obj rest) = digest then some (.obj rest) else (Json.obj rest).get? "value"
    else (Json.obj members).get? "batch"
  | _, _                 => none

lemma setMember_of_notMem {key : String} {value : Json} {members : List (String × Json)}
    (h : (Json.obj members).get? key = none) : setMember key value members = members ++ [(key, value)] := by
  have hkey : ∀ m ∈ members, m.1 ≠ key := by simpa [Json.get?] using h
  rw [setMember, if_neg]
  intro hany
  obtain ⟨m, hm, hk⟩ := List.any_eq_true.mp hany
  exact hkey m hm (of_decide_eq_true hk)

/-- Without the context the sorted evidence is the sorted row. -/
lemma filter_evidence {members : List (String × Json)} {context : Json}
    (h : (Json.obj members).get? contextKey = none) :
    ((Json.sortMembers (setMember contextKey context members)).insertionSort fun a b => a.1 ≤ b.1).filter
      (·.1 ≠ contextKey) = (Json.sortMembers members).insertionSort fun a b => a.1 ≤ b.1 := by
  have hfilter : (members ++ [(contextKey, context)]).filter (·.1 ≠ contextKey) = members := by
    rw [List.filter_append, List.filter_eq_self.mpr]
    · simp
    · simpa [Json.get?] using h
  rw [setMember_of_notMem h, Json.filter_insertionSort_sortMembers (fun k => k ≠ contextKey), hfilter]

lemma any_evidence (context : Json) (members : List (String × Json)) :
    ((Json.sortMembers (setMember contextKey context members)).insertionSort fun a b => a.1 ≤ b.1).any
      (·.1 = contextKey) = true := by
  have hmem : ∃ m ∈ setMember contextKey context members, m.1 = contextKey := by
    rw [setMember]
    split_ifs with h
    · obtain ⟨m, hm, hk⟩ := List.any_eq_true.mp h
      exact ⟨(contextKey, context), List.mem_map.mpr ⟨m, hm, if_pos (of_decide_eq_true hk)⟩, rfl⟩
    · exact ⟨(contextKey, context), by simp, rfl⟩
  obtain ⟨m, hm, hk⟩ := hmem
  refine List.any_eq_true.mpr ⟨(m.1, m.2.sortKeys), ?_, decide_eq_true hk⟩
  rw [List.mem_insertionSort, Json.sortMembers_eq_map]
  exact List.mem_map.mpr ⟨m, hm, rfl⟩

/-- The pair of a row that is kept gives the row back. -/
lemma recover_evidence {raw : Json} {context : List (String × Json)} (hc : context ≠ []) (h : Kept env raw) :
    recover env (evidence raw context).sortKeys (env.digest raw) = some raw.sortKeys := by
  obtain ⟨hno, hdigest⟩ := h
  have hctx : context.isEmpty = false := by simpa using hc
  have hwrapped : (Json.obj (wrapped raw)).get? contextKey = none := by
    cases raw with
    | scalar v => rfl
    | arr items => rfl
    | obj members => exact hno
  simp only [evidence, hctx, Bool.false_eq_true, if_false, Json.sortKeys, recover, any_evidence, if_true,
    filter_evidence hwrapped]
  have hsorted : Json.obj ((Json.sortMembers (wrapped raw)).insertionSort fun a b => a.1 ≤ b.1) =
      (Json.obj (wrapped raw)).sortKeys := rfl
  rw [hsorted, env.digest_sortKeys]
  -- an object is its own wrapper
  cases hobj : raw.isObj with
  | true =>
    obtain ⟨members, rfl⟩ : ∃ members, raw = .obj members := by
      cases raw with
      | obj members => exact ⟨members, rfl⟩
      | _ => cases hobj
    rw [wrapped, if_pos rfl]
  | false =>
    have hw : wrapped raw = [("value", raw)] := by
      cases raw with
      | obj members => cases hobj
      | _ => rfl
    rw [hw, if_neg (hdigest hobj), Json.get?_sortKeys]
    rfl

/-- The pair of a batch without rows gives the payload back. -/
lemma recover_batch (payload : Json) (digest : String) :
    recover env (evidence (.obj [("batch", payload)]) []).sortKeys digest = some payload.sortKeys := rfl

/-! ### Items of a batch -/

/-- The row, or the payload as a whole, that an item is about. -/
def original (payload : Json) (item : Item) : Option Json :=
  if item.itemIndex = -1 then some payload
  else ((payload.get? "events").bind Json.arr?).bind (·[item.itemIndex.toNat]?)

/-- `f` gives what the item is about from what is stored of it, up to the order of keys. -/
def Recovers (f : Json → String → Option Json) (payload : Json) (item : Item) : Prop :=
  ∃ raw, original payload item = some raw ∧
    ∃ evidence, item.protectedPayload = some evidence ∧ f evidence item.payloadDigest = some raw.sortKeys

lemma request_events (env : Env E) (payload : Json) :
    (request env payload).events = (payload.get? "events").bind Json.arr? := by
  cases payload with
  | obj members => rfl
  | _ => rfl

/-- A quarantined item of a batch: the payload as a whole, or one row of it with a context. -/
inductive IsEvidence (env : Env E) (payload : Json) (item : Item) : Prop where
  | batch (hindex : item.itemIndex = -1)
      (hstored : item.protectedPayload = some (evidence (.obj [("batch", payload)]) []).sortKeys)
  | row (raw : Json) (i : Nat) (context : List (String × Json)) (hc : context ≠ []) (hindex : item.itemIndex = i)
      (hraw : original payload item = some raw) (hdigest : item.payloadDigest = env.digest raw)
      (hstored : item.protectedPayload = some (evidence raw context).sortKeys)

lemma isEvidence_quarantineItem {payload raw : Json} {receiptId i : Nat} {code : String} {path : Option String}
    {summary : List Summary} {events : List Json} (hevents : (request env payload).events = some events)
    (hraw : (raw, i) ∈ events.zipIdx) :
    IsEvidence env payload
      (quarantineItem env receiptId i raw code path summary (request env payload).context) := by
  have hget : events[i]? = some raw := List.mem_zipIdx_iff_getElem?.mp hraw
  refine .row raw i (request env payload).context (by simp [Request.context]) rfl ?_ rfl rfl
  have hindex : ((i : Int) = -1) = False := by simp
  rw [original, ← request_events env, hevents]
  simp [quarantineItem, hget]

lemma isEvidence_validateRows {payload : Json} {receiptId : Nat} {events : List Json}
    (hevents : (request env payload).events = some events) {rows : List (Json × Nat)} (hrows : rows ⊆ events.zipIdx)
    {item : Item} (hitem : item ∈ (validateRows env (request env payload) receiptId rows).1) :
    IsEvidence env payload item := by
  induction rows with
  | nil => cases hitem
  | cons row rows ih =>
    obtain ⟨raw, i⟩ := row
    obtain ⟨hraw, hrest⟩ := List.cons_subset.mp hrows
    simp only [validateRows] at hitem
    split at hitem
    · rcases List.mem_cons.mp hitem with rfl | hitem
      · exact isEvidence_quarantineItem hevents hraw
      · exact ih hrest hitem
    · exact ih hrest hitem

lemma not_quarantined_of_mem_settledItems {db : Db} {receiptId : Nat} {valid : List (Nat × E × Json)}
    {accepted : List String} {item : Item} (hitem : item ∈ settledItems env db receiptId valid accepted) :
    item.disposition ≠ .quarantined := by
  induction valid generalizing accepted with
  | nil => cases hitem
  | cons row valid ih =>
    obtain ⟨i, parsed, raw⟩ := row
    simp only [settledItems] at hitem
    rcases List.mem_cons.mp hitem with rfl | hitem
    · dsimp only
      split_ifs <;> decide
    · exact ih hitem

lemma isEvidence_dispose {connector : Connector} {payload : Json} {conflict : Bool} {receiptId : Nat} {db : Db}
    {d : Disposed} (h : dispose env connector (request env payload) payload conflict receiptId db = .ok d)
    {item : Item} (hitem : item ∈ d.items) (hq : item.disposition = .quarantined) : IsEvidence env payload item := by
  have hrejected (hitem : item ∈ (validateRows env (request env payload) receiptId
      ((request env payload).events.getD []).zipIdx).1) : IsEvidence env payload item := by
    cases hevents : (request env payload).events with
    | none =>
      rw [hevents] at hitem
      cases hitem
    | some events =>
      rw [hevents] at hitem
      exact isEvidence_validateRows hevents (List.Subset.refl _) hitem
  simp only [dispose] at h
  split at h
  · cases h
    simp only [batchItems] at hitem
    split at hitem
    · rename_i events hbounded
      obtain ⟨⟨raw, i⟩, hraw, rfl⟩ := List.mem_map.mp hitem
      exact isEvidence_quarantineItem (Option.filter_eq_some_iff.mp hbounded).1 hraw
    · rw [List.mem_singleton] at hitem
      subst hitem
      exact .batch rfl rfl
  · split at h
    · cases h
      exact hrejected hitem
    · split at h
      · cases h
      · cases h
        rcases List.mem_append.mp hitem with hitem | hitem
        · exact hrejected hitem
        · exact absurd hq (not_quarantined_of_mem_settledItems hitem)

lemma IsEvidence.recovers {payload : Json} {item : Item} (h : IsEvidence env payload item)
    (hkept : ∀ raw, original payload item = some raw → item.itemIndex = -1 ∨ Kept env raw) :
    Recovers (recover env) payload item := by
  cases h with
  | batch hindex hstored => exact ⟨payload, if_pos hindex, _, hstored, recover_batch ..⟩
  | row raw i context hc hindex hraw hdigest hstored =>
    have hraw' : Kept env raw := (hkept raw hraw).resolve_left (by simp [hindex])
    exact ⟨raw, hraw, _, hstored, hdigest ▸ recover_evidence hc hraw'⟩

/-! ### Rows that use the key of the context -/

/-- A batch whose id is not valid. -/
def unnamedBatch (rows : List Json) : Json := .obj [("batch_id", .str ""), ("events", .arr rows)]

/-- The context that its rows are quarantined with. -/
def unnamedContext : List (String × Json) := [("batch_id", .str ""), ("payload_digest", .null)]

/-- The item of a row of it. -/
def unnamedItem (env : Env E) (i : Nat) (raw : Json) : Item :=
  quarantineItem env 0 i raw "ATTENDANCE_BATCH_ID_INVALID" (some "batch_id") [] unnamedContext

/-- Both rows of such a batch are quarantined. -/
lemma settle_unnamedBatch (env : Env E) (a b : Json) :
    ∃ db' s, settleAttendanceBatch env ⟨true, false⟩ {} (unnamedBatch [a, b]) = .ok (db', s) ∧
      db'.items = [unnamedItem env 0 a, unnamedItem env 1 b] :=
  ⟨_, _, rfl, rfl⟩

/-- Nothing tells rows with one stored pair apart. -/
lemma exists_not_recovers (f : Json → String → Option Json) {a b : Json}
    (hevidence : evidence a unnamedContext = evidence b unnamedContext) (hdigest : env.digest a = env.digest b)
    (hne : a.sortKeys ≠ b.sortKeys) :
    ∃ db' s, settleAttendanceBatch env ⟨true, false⟩ {} (unnamedBatch [a, b]) = .ok (db', s) ∧
      ∃ item ∈ db'.items, item.disposition = .quarantined ∧ ¬ Recovers f (unnamedBatch [a, b]) item := by
  obtain ⟨db', s, hsettle, hitems⟩ := settle_unnamedBatch env a b
  refine ⟨db', s, hsettle, ?_⟩
  by_contra! hall
  obtain ⟨_, ⟨⟩, _, ⟨⟩, ha⟩ := hall (unnamedItem env 0 a) (by simp [hitems]) rfl
  obtain ⟨_, ⟨⟩, _, ⟨⟩, hb⟩ := hall (unnamedItem env 1 b) (by simp [hitems]) rfl
  simp only [unnamedItem, quarantineItem] at ha hb
  rw [hevidence, hdigest, hb] at ha
  exact hne (Option.some.inj ha).symm

/-- A row with a member under the key of the context. -/
def withContext (members : List (String × Json)) (n : Int) : Json := .obj (members ++ [(contextKey, .int n)])

lemma evidence_withContext {members : List (String × Json)} (h : HasNoContext (.obj members)) (n m : Int) :
    evidence (withContext members n) unnamedContext = evidence (withContext members m) unnamedContext := by
  have hkey : ∀ m ∈ members, m.1 ≠ contextKey := by simpa [HasNoContext, Json.get?] using h
  have hmap : members.map (fun m => if m.1 = contextKey then (contextKey, .obj unnamedContext) else m) = members :=
    List.map_congr_left (fun m hm => if_neg (hkey m hm)) |>.trans (List.map_id members)
  simp [evidence, unnamedContext, withContext, wrapped, setMember]

lemma sortKeys_withContext_ne {members : List (String × Json)} (h : HasNoContext (.obj members)) {n m : Int}
    (hne : n ≠ m) : (withContext members n).sortKeys ≠ (withContext members m).sortKeys := by
  have hget (n : Int) : (withContext members n).sortKeys.get? contextKey = some (.int n) := by
    rw [Json.get?_sortKeys]
    have : (withContext members n).get? contextKey = some (.int n) := by
      have hfind : members.find? (·.1 = contextKey) = none := by simpa [HasNoContext, Json.get?] using h
      simp [withContext, Json.get?, List.find?_append, hfind]
    rw [this]
    rfl
  intro heq
  have := (hget n).symm.trans (heq ▸ hget m)
  simp only [Option.some.injEq, Json.int, Json.scalar.injEq, Json.Scalar.int.injEq] at this
  exact hne this

private lemma finite_char : Finite Char :=
  Finite.of_injective (fun c => c.val.toFin) fun _ _ h => Char.ext (UInt32.toFin_inj.mp h)

/-- There are more rows than digests. -/
lemma exists_digest_withContext_eq (env : Env E) (members : List (String × Json)) :
    ∃ n m, n ≠ m ∧ env.digest (withContext members n) = env.digest (withContext members m) := by
  have := finite_char
  have hfinite : Finite { l : List Char | l.length = 64 } := List.finite_length_eq Char 64
  obtain ⟨n, m, hne, heq⟩ := Finite.exists_ne_map_eq_of_infinite fun n : Int =>
    (⟨(env.digest (withContext members n)).toList, env.length_digest _⟩ : { l : List Char | l.length = 64 })
  exact ⟨n, m, hne, String.toList_inj.mp (congrArg Subtype.val heq)⟩

/-- Digests that tell objects from other values, and no row that is valid. -/
def shapeEnv : Env Unit where
  digest value := String.ofList (List.replicate 64 (if value.isObj then '0' else '1'))
  length_digest := by simp
  digest_sortKeys value := by cases value <;> rfl
  modelValidate _ := .error [⟨"event_uid", "missing"⟩]
  eventUid _ := ""
  captureTime _ := false

/-- A batch of a number and of an object. -/
def twoRows : Json := .obj [("batch_id", .str "b"), ("events", .arr [.int 5, .obj [("user_id", .str "7")]])]

end AttendanceBatch
