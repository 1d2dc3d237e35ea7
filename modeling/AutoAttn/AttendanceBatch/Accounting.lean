import AutoAttn.AttendanceBatch.Evidence

/-!
# Every row is accounted for

Whatever batches are sent, each row has one item, with its position and with what became of it. So the checks at the
end of settling never fail, and no punch is acknowledged that ADD does not hold.
-/

namespace AttendanceBatch

variable {E : Type} {env : Env E} {db db' : Db} {connector : Connector} {req : Request} {payload : Json}
  {number : Nat} {conflict : Bool}

/-- ADD has an event with the uid. -/
def Held (events : Table Event) (uid : String) : Prop := ∃ e ∈ events, e.eventUid = uid

/-- The item is one of the receipt, and its row is kept as evidence, or ADD has its event. -/
def Item.Accounted (number : Nat) (events : Table Event) (i : Item) : Prop :=
  i.receiptId = number ∧ (i.disposition = .quarantined ∧ i.protectedPayload.isSome = true ∨
    i.disposition ≠ .quarantined ∧ ∃ uid, i.eventUid = some uid ∧ Held events uid)

/-- The items have the positions of `n` rows, each once. -/
def Covers (items : List Item) (n : Nat) : Prop := (items.map (·.itemIndex)).Perm ((List.range n).map Int.ofNat)

structure Accounts (db : Db) : Prop where
  items : ∀ i ∈ db.items, ∃ n < db.receipts.rows.length, i.Accounted n db.events
  rows : ∀ r ∈ db.receipts, r.itemCount ∈ Set.Icc 1 maxBatchEvents →
    Covers (db.items.filter (·.receiptId = r.id)) r.itemCount

/-- A call fails for want of a terminal or for its family only. If it settles the batch, then every row of a receipt has
its item, every item its evidence or its event, and every uid that is acknowledged its event. -/
def Settles : Except Failure (Db × Settlement) → Prop
  | .error failure => failure = .noDevice ∨ failure = .hikvision
  | .ok (db, s)    => Accounts db ∧ ∀ uid ∈ s.acceptedEventUids ++ s.duplicateEventUids, Held db.events uid

namespace Accounts

lemma derived (h : Accounts db) (hd : Derived env db db') : Accounts db' := by
  refine ⟨by rw [hd.items, hd.length, hd.events]; exact h.items, fun r hr => ?_⟩
  rw [hd.items]
  obtain ⟨old, hold, rfl | rfl⟩ := hd.receipts r hr
  · exact h.rows r hold
  · exact h.rows old hold

/-- Only the number and the row count of a receipt matter. -/
lemma put {r : Receipt} (h : Accounts db) (r' : Receipt) (hr : r ∈ db.receipts) (hid : r'.id = r.id)
    (hcount : r'.itemCount = r.itemCount) : Accounts { db with receipts := db.receipts.put r' } := by
  refine ⟨by rw [Table.length_put]; exact h.items, fun x hx => ?_⟩
  rcases Table.of_mem_put hx with rfl | ⟨hx, -⟩
  · rw [hid, hcount]
    exact h.rows r hr
  · exact h.rows x hx

/-- What is acknowledged comes from items that are not quarantined. -/
lemma settles (h : Accounts db) (r : Receipt) (replay : Option Replay) :
    Settles (.ok (db, settlementFromReceipt db r replay)) := by
  refine ⟨h, fun uid huid => ?_⟩
  simp only [settlementFromReceipt, itemsOf, List.mem_append, List.mem_filterMap, List.mem_filter,
    List.mem_insertionSort, decide_eq_true_eq] at huid
  obtain ⟨i, ⟨⟨hi, -⟩, hdisposition⟩, huid⟩ | ⟨i, ⟨⟨hi, -⟩, hdisposition⟩, huid⟩ := huid <;>
  · obtain ⟨_, _, _, ⟨hquarantined, -⟩ | ⟨-, _, heq, hheld⟩⟩ := h.items i hi
    · simp [hdisposition] at hquarantined
    · exact Option.some.inj (heq.symm.trans huid) ▸ hheld

end Accounts

/-! ### One batch -/

/-- A row is rejected or valid, and keeps its position. -/
lemma validateRows_spec (env : Env E) (req : Request) (number : Nat) (rows : List (Json × Nat)) :
    ((validateRows env req number rows).1.map (·.itemIndex) ++ (validateRows env req number rows).2.map
      fun v => Int.ofNat v.1).Perm (rows.map fun r => Int.ofNat r.2) ∧
    ∀ events, ∀ i ∈ (validateRows env req number rows).1, i.Accounted number events := by
  induction rows with
  | nil => simp [validateRows]
  | cons row rows ih =>
    rw [validateRows]
    cases env.modelValidate row.1 with
    | error summary =>
      exact ⟨ih.1.cons _, fun events => List.forall_mem_cons.mpr ⟨⟨rfl, .inl ⟨rfl, rfl⟩⟩, ih.2 events⟩⟩
    | ok parsed => exact ⟨List.perm_middle.trans (ih.1.cons _), ih.2⟩

lemma settledItems_spec (env : Env E) (db : Db) (number : Nat) {events : Table Event}
    {valid : List (Nat × E × Json)} (accepted : List String)
    (h : ∀ v ∈ valid, Held events (env.eventUid v.2.1)) :
    (settledItems env db number valid accepted).map (·.itemIndex) = (valid.map fun v => Int.ofNat v.1) ∧
    ∀ i ∈ settledItems env db number valid accepted, i.Accounted number events := by
  induction valid generalizing accepted with
  | nil => simp [settledItems]
  | cons v valid ih =>
    obtain ⟨hheld, hrest⟩ := List.forall_mem_cons.mp h
    obtain ⟨hindex, hitems⟩ := ih (accepted.filter (· ≠ env.eventUid v.2.1)) hrest
    refine ⟨congrArg _ hindex, List.forall_mem_cons.mpr ⟨⟨rfl, .inr ⟨?_, _, rfl, hheld⟩⟩, hitems⟩⟩
    dsimp only
    split_ifs <;> simp

/-- Every event is counted, and its uid was seen or is that of a new one. -/
lemma splitEvents_spec (env : Env E) (events : List E) (seen : List String) :
    (splitEvents env events seen).1.length + (splitEvents env events seen).2.length = events.length ∧
    ∀ event ∈ events, env.eventUid event ∈ seen ∨
      ∃ p ∈ (splitEvents env events seen).1, env.eventUid p = env.eventUid event := by
  induction events generalizing seen with
  | nil => simp [splitEvents]
  | cons first events ih =>
    have hseen := ih seen
    have hnew := ih (env.eventUid first :: seen)
    rw [splitEvents]
    split_ifs <;> grind

lemma held_insertEvents (env : Env E) {uid : String} (pending : List E) (t : Table Event)
    (h : Held t uid ∨ ∃ p ∈ pending, env.eventUid p = uid) :
    Held (pending.foldl (fun t event => t.insert fun id => ⟨id, env.eventUid event⟩) t) uid := by
  induction pending generalizing t with
  | nil => simpa using h
  | cons first pending ih =>
    refine ih _ ?_
    simpa [Held, Table.mem_insert, or_and_right, exists_or, or_assoc] using h

/-- An ingestion counts every row, forgets no event and leaves one for each row. -/
lemma ingestAttendance_spec (env : Env E) (db : Db) (rows : List E) : ∃ db' accepted duplicates,
    ingestAttendance env db rows = (db', accepted, duplicates) ∧ accepted.length + duplicates.length = rows.length ∧
    (∀ uid, Held db.events uid → Held db'.events uid) ∧ ∀ row ∈ rows, Held db'.events (env.eventUid row) := by
  obtain ⟨hlength, huids⟩ := splitEvents_spec env rows
    ((db.events.rows.map (·.eventUid)).filter (· ∈ rows.map env.eventUid))
  refine ⟨_, _, _, rfl, by rwa [List.length_map], fun uid huid => held_insertEvents env _ _ (.inl huid), ?_⟩
  refine fun row hrow => held_insertEvents env _ _ ((huids row hrow).imp_left fun hseen => ?_)
  exact List.mem_map.mp (List.mem_of_mem_filter hseen)

/-- The disposal of a batch adds up. -/
structure Disposes (db : Db) (req : Request) (number : Nat) (d : Disposed) : Prop where
  total : d.items.length = d.accepted + d.duplicates + d.quarantined
  items : ∀ i ∈ d.items, i.Accounted number d.events
  events : ∀ uid, Held db.events uid → Held d.events uid
  rows : (req.events.getD []).length ∈ Set.Icc 1 maxBatchEvents → Covers d.items (req.events.getD []).length

lemma zipIdx_positions (rows : List Json) :
    (rows.zipIdx.map fun r => Int.ofNat r.2) = (List.range rows.length).map Int.ofNat := by
  rw [List.range_eq_range', ← List.zipIdx_map_snd 0 rows, List.map_map]
  rfl

lemma disposes_batchItems (code : String) (path : Option String) :
    Disposes db req number
      { items := batchItems env req payload number code path, events := db.events,
        quarantined := (batchItems env req payload number code path).length } := by
  refine ⟨by simp, fun i hi => ?_, fun _ => id, fun hn => ?_⟩
  · rw [batchItems] at hi
    split at hi
    · obtain ⟨row, -, rfl⟩ := List.mem_map.mp hi
      exact ⟨rfl, .inl ⟨rfl, rfl⟩⟩
    · exact List.mem_singleton.mp hi ▸ ⟨rfl, .inl ⟨rfl, rfl⟩⟩
  · cases hevents : req.events with
    | none => simp [hevents] at hn
    | some events =>
      have hb : req.bounded = some events := by simpa [Request.bounded, hevents] using hn
      rw [Covers, batchItems, hb, List.map_map, Option.getD_some, ← zipIdx_positions]
      exact .refl _

/-- Only the family of the connector keeps the rows of a batch from being disposed of. -/
lemma dispose_spec {r : Except Failure Disposed} (h : dispose env connector req payload conflict number db = r) :
    r = .error .hikvision ∨ ∃ d, r = .ok d ∧ Disposes db req number d := by
  subst h
  rw [dispose]
  cases req.batchError conflict with
  | some error => exact .inr ⟨_, rfl, disposes_batchItems _ _⟩
  | none =>
    obtain ⟨hrows, hitems⟩ := validateRows_spec env req number (req.events.getD []).zipIdx
    generalize validateRows env req number (req.events.getD []).zipIdx = rows at hrows hitems
    rw [zipIdx_positions] at hrows
    dsimp only
    split_ifs with hempty hfamily
    · rw [List.isEmpty_iff.mp hempty, List.map_nil, List.append_nil] at hrows
      exact .inr ⟨_, rfl, by simp, hitems _, fun _ => id, fun _ => hrows⟩
    · exact .inl rfl
    · obtain ⟨db', accepted, duplicates, heq, hlength, hold, hnew⟩ :=
        ingestAttendance_spec env db (rows.2.map (·.2.1))
      obtain ⟨hindex, hsettled⟩ := settledItems_spec env db' number accepted fun v hv =>
        hnew v.2.1 (List.mem_map.mpr ⟨v, hv, rfl⟩)
      simp only [heq]
      refine .inr ⟨_, rfl, ?_, List.forall_mem_append.mpr ⟨hitems _, hsettled⟩, hold, fun _ => ?_⟩
      · have hcount := congrArg List.length hindex
        simp only [List.length_map] at hcount hlength
        rw [List.length_append, hcount, hlength, Nat.add_comm]
      · rw [Covers, List.map_append, hindex]
        exact hrows

/-! ### Runs of batches -/

lemma settles_settleNew (h : Accounts db) (content : Option String) :
    Settles (settleNew env connector req payload conflict content db) := by
  rw [settleNew]
  split_ifs
  · exact .inl rfl
  dsimp only
  generalize hr : dispose env connector req payload conflict db.receipts.rows.length db = r
  obtain rfl | ⟨d, rfl, hd⟩ := dispose_spec hr
  · exact .inr rfl
  -- the items under the new number are those of the batch, for all others have a smaller one
  have hfilter : (db.items ++ d.items).filter (·.receiptId = db.receipts.rows.length) = d.items := by
    have hold : ∀ i ∈ db.items, i.receiptId ≠ db.receipts.rows.length := fun i hi => by
      obtain ⟨n, hn, hid, -⟩ := h.items i hi
      exact hid ▸ hn.ne
    rw [List.filter_append, List.filter_eq_nil_iff.mpr (by simpa using hold), List.nil_append,
      List.filter_eq_self.mpr fun i hi => decide_eq_true (hd.items i hi).1]
  simp only [finishReceipt, hfilter]
  rw [if_neg (not_not.mpr hd.total), if_neg]
  · refine Accounts.settles ⟨fun i hi => ?_, fun r hr hn => ?_⟩ _ _
    · rw [Table.length_put]
      rcases List.mem_append.mp hi with hi | hi
      · obtain ⟨n, hn, hid, hkept⟩ := h.items i hi
        refine ⟨n, by simpa [Table.insert] using hn.trans (Nat.lt_succ_self _), hid, hkept.imp_right ?_⟩
        rintro ⟨hne, uid, heq, hheld⟩
        exact ⟨hne, uid, heq, hd.events uid hheld⟩
      · exact ⟨_, by simp [Table.insert], hd.items i hi⟩
    · rcases Table.of_mem_put hr with rfl | ⟨hr, hne⟩
      · exact hfilter.symm ▸ hd.rows hn
      · rcases Table.mem_insert.mp hr with hr | rfl
        · have hother : d.items.filter (·.receiptId = r.id) = [] :=
            List.filter_eq_nil_iff.mpr fun i hi => by simpa [(hd.items i hi).1] using fun heq => hne heq.symm
          rw [List.filter_append, hother, List.append_nil]
          exact h.rows r hr hn
        · exact absurd rfl hne
  · rintro ⟨hpos, hle, hne⟩
    exact hne (hd.total.symm.trans (by simpa using (hd.rows ⟨hpos, hle⟩).length_eq))

lemma settles_settleAttendanceBatch (env : Env E) (h : Accounts db) (connector : Connector) (payload : Json) :
    Settles (settleAttendanceBatch env connector db payload) := by
  rcases settleAttendanceBatch_cases env connector db payload with
    ⟨r, hr, _, _, db', s, heq, rfl, rfl⟩ | ⟨_, db₀, prior, hprior, _, hd, _, _, _, db', s, heq, rfl, rfl⟩ |
    ⟨db₀, conflict, hd, heq⟩ <;> rw [heq]
  · exact (h.put (retried env _ r) hr rfl rfl).settles _ _
  · exact ((h.derived hd).put (observed prior) hprior rfl rfl).settles _ _
  · exact settles_settleNew (h.derived hd) _

/-- The state is one that batches lead to, each settled as a whole or not at all. -/
def Reached (env : Env E) : Db → Prop :=
  Relation.ReflTransGen (fun db db' => ∃ connector payload s,
    settleAttendanceBatch env connector db payload = .ok (db', s)) {}

end AttendanceBatch
