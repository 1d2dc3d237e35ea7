import AutoAttn.AttendanceBatch.Basic

/-!
# What settling a batch does

A batch is answered by an earlier receipt, or it gets a receipt and items of its own. Looking for an earlier
receipt changes nothing but content digests, and those only to what the evidence of the receipt says.
-/

namespace AttendanceBatch

variable {E : Type} {env : Env E} {db db₀ db' : Db} {receipt : Receipt} {s : Settlement} {connector : Connector}

/-! ### Looking for an earlier receipt -/

/-- A receipt with the content digest that its evidence gives. -/
def derive (env : Env E) (db : Db) (r : Receipt) : Receipt :=
  { r with contentDigest := some ((preservedContentDigest env db r).getD contentDigestUnavailable) }

/-- The receipts of `db₀` are those of `db`, some with the content digest that their evidence gives. -/
structure Derived (env : Env E) (db db₀ : Db) : Prop where
  items : db₀.items = db.items
  events : db₀.events = db.events
  length : db₀.receipts.rows.length = db.receipts.rows.length
  receipts : ∀ r ∈ db₀.receipts, ∃ old ∈ db.receipts, r = old ∨ r = derive env db old

lemma Derived.refl (db : Db) : Derived env db db where
  items := rfl
  events := rfl
  length := rfl
  receipts r hr := ⟨r, hr, .inl rfl⟩

lemma preservedContentDigest_congr (h : db₀.items = db.items) (r : Receipt) :
    preservedContentDigest env db₀ r = preservedContentDigest env db r := by
  unfold preservedContentDigest itemsOf
  rw [h]

/-- One candidate gets its content digest. -/
lemma Derived.put {candidate : Receipt} (h : Derived env db db₀) (hc : candidate ∈ db.receipts) :
    Derived env db { db₀ with receipts := db₀.receipts.put (derive env db candidate) } where
  items := h.items
  events := h.events
  length := by simpa using h.length
  receipts r hr := by
    rcases Table.of_mem_put hr with rfl | ⟨hr, _⟩
    · exact ⟨candidate, hc, .inr rfl⟩
    · exact h.receipts r hr

/-- A row of the table has its number in the table of `db` too. -/
lemma Derived.exists_rowId (h : Derived env db db₀) {r : Receipt} (hr : r ∈ db.receipts) :
    ∃ r' ∈ db₀.receipts, Row.rowId r' = Row.rowId r :=
  Table.exists_of_lt (h.length ▸ Table.rowId_lt hr)

lemma derived_deriveCandidates {content : String} {candidates : List Receipt} {found : Option Receipt}
    (h : Derived env db db₀) (hc : ∀ r ∈ candidates, r ∈ db.receipts)
    (heq : deriveCandidates env content candidates db₀ = (db', found)) :
    Derived env db db' ∧
      ∀ prior, found = some prior → prior ∈ db'.receipts ∧ prior.contentDigest = some content ∧
        ∃ r ∈ candidates, prior = derive env db r := by
  induction candidates generalizing db₀ with
  | nil =>
    cases heq
    exact ⟨h, nofun⟩
  | cons candidate candidates ih =>
    have hmem : candidate ∈ db.receipts := hc candidate List.mem_cons_self
    have hput := h.put hmem
    rw [deriveCandidates, preservedContentDigest_congr h.items] at heq
    split at heq
    · rename_i hderived
      cases heq
      refine ⟨hput, ?_⟩
      rintro prior ⟨⟩
      have hrow := h.exists_rowId hmem
      refine ⟨Table.mem_put_self hrow, ?_, candidate, List.mem_cons_self, rfl⟩
      simp [hderived]
    · obtain ⟨hd, hfound⟩ := ih hput (fun r hr => hc r (List.mem_cons_of_mem _ hr)) heq
      refine ⟨hd, fun prior hp => ?_⟩
      obtain ⟨hmem, hcontent, r, hr, hprior⟩ := hfound prior hp
      exact ⟨hmem, hcontent, r, List.mem_cons_of_mem _ hr, hprior⟩

/-- The search for the receipt that a batch repeats. -/
lemma replayedReceipt_spec {batchId content : String} {itemCount : Nat} {found : Option Receipt}
    (heq : replayedReceipt env db batchId content itemCount = (db', found)) :
    Derived env db db' ∧
      ∀ prior, found = some prior →
        prior ∈ db'.receipts ∧ prior.batchId = batchId ∧ prior.contentDigest = some content := by
  simp only [replayedReceipt] at heq
  split at heq
  · rename_i prior hprior
    cases heq
    refine ⟨.refl db, ?_⟩
    rintro prior ⟨⟩
    have hmem : prior ∈ db.receipts.rows.filter fun r => r.batchId = batchId ∧ r.contentDigest = some content := by
      rcases Option.or_eq_some_iff.mp hprior with h | ⟨_, h⟩
      · exact List.mem_of_find?_eq_some h
      · exact List.mem_of_mem_head? h
    obtain ⟨hmem, hp⟩ := List.mem_filter.mp hmem
    exact ⟨hmem, of_decide_eq_true hp⟩
  · have hc : ∀ r ∈ (db.receipts.rows.filter fun r => r.batchId = batchId ∧ r.contentDigest = none ∧
        r.outcome = .quarantined ∧ r.itemCount = itemCount ∧ r.quarantinedCount = itemCount).reverse.take
          legacyCompareLimit, r ∈ db.receipts ∧ r.batchId = batchId := by
      intro r hr
      obtain ⟨hmem, hp⟩ := List.mem_filter.mp (List.mem_reverse.mp (List.mem_of_mem_take hr))
      exact ⟨hmem, (of_decide_eq_true hp).1⟩
    obtain ⟨hd, hfound⟩ := derived_deriveCandidates (.refl db) (fun r hr => (hc r hr).1) heq
    refine ⟨hd, fun prior hp => ?_⟩
    obtain ⟨hmem, hcontent, r, hr, rfl⟩ := hfound prior hp
    exact ⟨hmem, (hc r hr).2, hcontent⟩

/-! ### Settling -/

/-- A receipt that a batch repeats. -/
def observed (r : Receipt) : Receipt := { r with observationCount := r.observationCount + 1 }

/-- An earlier receipt `r` answers the batch. -/
def Answers (db' : Db) (s : Settlement) (db₀ : Db) (r : Receipt) (replay : Replay) : Prop :=
  db' = { db₀ with receipts := db₀.receipts.put r } ∧ s = settlementFromReceipt db' r (some replay)

/-- A batch is sent again, repeats the content of a receipt, or gets a receipt of its own. -/
lemma settleAttendanceBatch_cases (env : Env E) (connector : Connector) (db : Db) (payload : Json) :
    (∃ r ∈ db.receipts, r.batchId = (request env payload).batchId ∧ r.payloadDigest = (request env payload).digest ∧
      ∃ db' s, settleAttendanceBatch env connector db payload = .ok (db', s) ∧
        Answers db' s db (retried env (request env payload) r) .exactRetry) ∨
    (∃ events db₀, ∃ prior ∈ db₀.receipts, (request env payload).bounded = some events ∧ Derived env db db₀ ∧
      prior.batchId = (request env payload).batchId ∧ prior.contentDigest = some (replayContentDigest env events) ∧
      replayRowsValid env db₀ prior events = true ∧
      ∃ db' s, settleAttendanceBatch env connector db payload = .ok (db', s) ∧
        Answers db' s db₀ (observed prior) .captureReplay) ∨
    (∃ db₀ conflict, Derived env db db₀ ∧ settleAttendanceBatch env connector db payload =
      settleNew env connector (request env payload) payload conflict
        ((request env payload).events.map (replayContentDigest env)) db₀) := by
  cases hex : existingReceipt db (request env payload) with
  | some r =>
    have hr := List.find?_some hex
    simp only [decide_eq_true_eq] at hr
    refine .inl ⟨r, List.mem_of_find?_eq_some hex, hr.1, hr.2.1, _, _, ?_, rfl, rfl⟩
    simp only [settleAttendanceBatch, hex]
    rfl
  | none =>
    right
    simp only [settleAttendanceBatch, hex]
    split
    · rename_i events content hbounded hcontent
      split
      · split
        · rename_i db₀ prior hreplay
          obtain ⟨hd, hprior⟩ := replayedReceipt_spec hreplay
          obtain ⟨hmem, hbatch, hdigest⟩ := hprior prior rfl
          have hevents : (request env payload).events = some events := (Option.filter_eq_some_iff.mp hbounded).1
          have hcontent : content = replayContentDigest env events := by
            rw [hevents] at hcontent
            simpa using hcontent.symm
          split
          · rename_i hvalid
            exact .inl ⟨events, db₀, prior, hmem, hbounded, hd, hbatch, hcontent ▸ hdigest, hvalid, _, _, rfl, rfl,
              rfl⟩
          · exact .inr ⟨db₀, _, hd, rfl⟩
        · rename_i db₀ hreplay
          exact .inr ⟨db₀, _, (replayedReceipt_spec hreplay).1, rfl⟩
      · exact .inr ⟨db, _, .refl db, rfl⟩
    · exact .inr ⟨db, _, .refl db, rfl⟩

/-! ### A receipt of its own -/

lemma finishReceipt_eq_ok {accepted duplicates quarantined : Nat}
    (h : finishReceipt db receipt accepted duplicates quarantined = .ok (db', s)) : db'.items = db.items := by
  simp only [finishReceipt] at h
  split at h
  · cases h
  · split at h
    · cases h
    · cases h
      rfl

lemma settleNew_eq_ok {req : Request} {payload : Json} {conflict : Bool} {content : Option String}
    (h : settleNew env connector req payload conflict content db = .ok (db', s)) :
    ∃ d, dispose env connector req payload conflict db.receipts.rows.length db = .ok d ∧
      db'.items = db.items ++ d.items := by
  simp only [settleNew] at h
  split at h
  · cases h
  · split at h
    · cases h
    · rename_i d hd
      exact ⟨d, hd, finishReceipt_eq_ok h⟩

/-- A settled batch adds no item, or those that became of its rows. -/
lemma settleAttendanceBatch_eq_ok {payload : Json}
    (h : settleAttendanceBatch env connector db payload = .ok (db', s)) :
    db'.items = db.items ∨
    ∃ db₀ conflict d, dispose env connector (request env payload) payload conflict db₀.receipts.rows.length db₀ =
      .ok d ∧ db'.items = db.items ++ d.items := by
  rcases settleAttendanceBatch_cases env connector db payload with
    ⟨r, _, _, _, db₁, s₁, heq, rfl, _⟩ | ⟨_, db₀, prior, _, _, hd, _, _, _, db₁, s₁, heq, rfl, _⟩ |
    ⟨db₀, conflict, hd, heq⟩
  · cases heq.symm.trans h
    exact .inl rfl
  · cases heq.symm.trans h
    exact .inl hd.items
  · obtain ⟨d, hdispose, hitems⟩ := settleNew_eq_ok (heq.symm.trans h)
    exact .inr ⟨db₀, conflict, d, hdispose, hd.items ▸ hitems⟩

end AttendanceBatch
