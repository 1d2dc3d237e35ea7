import AutoAttn.QueueEvidence.Custody

/-!
# Refused copies over whole runs

A run is a sequence of refusals and acceptances of a connector's messages. A copy that was refused stays on
the list of its alert, or is counted there, until ADD holds it. A copy that only an operator may resolve is
not safe from a later refusal of the same copy for another reason.
-/

namespace QueueEvidence

/-! ### Messages of a connector -/

/-- The rows that ADD holds and the open alerts. -/
structure State where
  store : Store
  alerts : Alerts

/-- No alert is open. -/
def State.start (store : Store) : State := ⟨store, fun _ => none⟩

/-- A message of the connector, by what ADD did with it. -/
inductive Event where
  | refuse (r : Refusal) (payload : Json)
  | accept (messageType : String) (now : Nat)
  | acceptEvidence (id : Nat) (receiptId : String) (request : Request) (now : Nat)

/-- What ADD commits for a message. -/
def step (env : Env) (connectorId : String) (s : State) : Event → State
  | .refuse r payload                         =>
    -- `record_envelope_rejection`
    let evidence := if r.messageType = queueEvidence then some (refusedCopy env payload) else none
    { s with alerts := recordMessageRejection s.store s.alerts r evidence }
  | .accept messageType now                   =>
    { s with alerts := resolveMessageRejection s.alerts messageType none now }
  | .acceptEvidence id receiptId request now =>
    match preserveQueueEvidence env connectorId s.store id receiptId request with
    | .ok (store, row) => ⟨store, resolveMessageRejection s.alerts queueEvidence (some row) now⟩
    -- The message is rejected, and nothing of it is committed.
    | .error _         => s

def run (env : Env) (connectorId : String) (s : State) (events : List Event) : State :=
  events.foldl (step env connectorId) s

/-- The copy of a refusal, if its identity is readable. -/
def copyOf (env : Env) (r : Refusal) (payload : Json) : Option Copy :=
  if r.messageType = queueEvidence then
    (evidenceIdentity (refusedCopy env payload)).map fun identity =>
      refusalCopy r identity (refusedCopy env payload) none
  else none

def State.pending (s : State) (code : Code) : List Copy := (unheldOf s.alerts code).1

def State.untracked (s : State) (code : Code) : Nat := (unheldOf s.alerts code).2

/-- ADD holds a row that accounts for the copy. -/
def State.Holds (s : State) (copy : Copy) : Prop := ∃ row ∈ s.store.rows, holdsRefusedCopy copy row ≠ none

/-! ### What a message changes -/

section Step

variable {env : Env} {connectorId : String} {s : State} {r : Refusal} {payload : Json} {c copy : Copy}

/-- The copies differ only in when and how often they were refused. -/
def Copy.Alike (copy c : Copy) : Prop :=
  copy.key = c.key ∧ copy.receivedCrc32 = c.receivedCrc32 ∧ copy.reason = c.reason

lemma Copy.Alike.holds (h : copy.Alike c) (row : Row) :
    holdsRefusedCopy copy row = holdsRefusedCopy c row := by
  obtain ⟨hkey, hcrc, hreason⟩ := h
  by_cases hop : c.reason ∈ operatorOnlyReasons
  · simp [holdsRefusedCopy, hreason, hop]
  · exact holdsRefusedCopy_congr hkey hcrc (hreason ▸ hop) hop

/-- The list after one copy of a key was taken out. -/
def Without (key : Key) (pending others : List Copy) : Prop :=
  others ⊆ pending ∧ ∀ item ∈ pending, item.key ≠ key → item ∈ others

lemma without_erase {key : Key} {pending : List Copy} {previous : Option Copy}
    (h : pending.find? (·.key = key) = previous) :
    Without key pending (previous.elim pending pending.erase) := by
  cases previous with
  | none => exact ⟨List.Subset.refl _, fun _ hitem _ => hitem⟩
  | some previous =>
    refine ⟨List.erase_subset, ?_⟩
    intro item hitem hkey
    have hprevious : previous.key = key := by simpa using List.find?_some h
    exact (List.mem_erase_of_ne (by rintro rfl; exact hkey hprevious)).2 hitem

/-- What a refusal makes of the pending copies and the count. -/
inductive Tracked (s : State) (c : Copy) (pending : List Copy) (untracked : Nat) :
    List Copy → Nat → Prop where
  | held {others : List Copy} (hholds : s.Holds c) (hwithout : Without c.key pending others) :
      Tracked s c pending untracked others untracked
  | counted : Tracked s c pending untracked pending (untracked + 1)
  | listed {copy : Copy} {others : List Copy} (halike : copy.Alike c) (hholds : ¬ s.Holds c)
      (hwithout : Without c.key pending others) : Tracked s c pending untracked (others ++ [copy]) untracked

lemma findHeldCopy_ne_none : findHeldCopy s.store copy ≠ none ↔ s.Holds copy := by
  rw [Ne, findHeldCopy_eq_none]
  simp [State.Holds]

lemma Copy.Alike.holds_iff (h : copy.Alike c) : s.Holds copy ↔ s.Holds c := by
  simp only [State.Holds, h.holds]

lemma refusalCopy_alike (identity : Identity) (facts : Facts) (previous : Option Copy) :
    (refusalCopy r identity facts previous).Alike (refusalCopy r identity facts none) := ⟨rfl, rfl, rfl⟩

lemma tracked_trackRefusedEvidence (entry : Option Entry) {facts : Facts} {identity : Identity}
    (h : evidenceIdentity facts = some identity) :
    Tracked s (refusalCopy r identity facts none) (unheld entry).1 (unheld entry).2
      (trackRefusedEvidence s.store entry (some facts) r).1.pending
      (trackRefusedEvidence s.store entry (some facts) r).1.untrackedRefusals := by
  rw [← unheld_startTracking]
  simp only [trackRefusedEvidence, Option.bind_some, h, Option.map_some]
  generalize hprevious : (startTracking entry).pending.find?
    (·.key = ⟨identity, facts.claimedDigest, facts.receivedDigest⟩) = previous
  have hwithout := without_erase hprevious
  have halike := refusalCopy_alike (r := r) identity facts previous
  cases hheld : findHeldCopy s.store (refusalCopy r identity facts previous) with
  | some found =>
    refine .held (halike.holds_iff.1 (findHeldCopy_ne_none.1 ?_)) hwithout
    simp [hheld]
  | none =>
    dsimp only
    split_ifs
    · exact .counted
    · refine .listed halike ?_ hwithout
      rw [← halike.holds_iff, ← findHeldCopy_ne_none, hheld]
      simp

lemma copyOf_eq_some (h : copyOf env r payload = some c) :
    r.messageType = queueEvidence ∧ ∃ identity, evidenceIdentity (refusedCopy env payload) = some identity ∧
      c = refusalCopy r identity (refusedCopy env payload) none := by
  unfold copyOf at h
  split_ifs at h with htype
  obtain ⟨identity, hidentity, rfl⟩ := Option.map_eq_some_iff.1 h
  exact ⟨htype, identity, hidentity, rfl⟩

/-- A readable refusal is held, counted or listed. -/
lemma tracked_refuse (connectorId : String) (s : State) (h : copyOf env r payload = some c) :
    Tracked s c (s.pending r.category.code) (s.untracked r.category.code)
      ((step env connectorId s (.refuse r payload)).pending r.category.code)
      ((step env connectorId s (.refuse r payload)).untracked r.category.code) := by
  obtain ⟨htype, identity, hidentity, rfl⟩ := copyOf_eq_some h
  have hentry : unheldOf s.alerts r.category.code = _ := (unheld_alertTypes _).symm
  simp only [step, State.pending, State.untracked, if_pos htype, unheldOf_record htype, hentry]
  exact tracked_trackRefusedEvidence _ hidentity

/-- A refusal whose identity is not readable is counted. -/
lemma unheldOf_unreadable (htype : r.messageType = queueEvidence) (h : copyOf env r payload = none) :
    unheldOf (step env connectorId s (.refuse r payload)).alerts r.category.code =
      (s.pending r.category.code, s.untracked r.category.code + 1) := by
  have hidentity : evidenceIdentity (refusedCopy env payload) = none := by simpa [copyOf, htype] using h
  have hentry : unheldOf s.alerts r.category.code = _ := (unheld_alertTypes _).symm
  simp only [step, State.pending, State.untracked, if_pos htype, unheldOf_record htype, hentry,
    trackRefusedEvidence, Option.bind_some, hidentity, Option.map_none, ← unheld_startTracking]

/-- What a message changes in an alert and in the rows that ADD holds. -/
inductive Change (env : Env) (s s' : State) (code : Code) : Event → Prop where
  | same {e : Event} (hrows : s'.store.rows = s.store.rows) (hpending : s'.pending code = s.pending code)
      (huntracked : s'.untracked code = s.untracked code) : Change env s s' code e
  /-- A refusal whose identity is not readable. -/
  | counted {e : Event} (hrows : s'.store.rows = s.store.rows) (hpending : s'.pending code = s.pending code)
      (huntracked : s'.untracked code = s.untracked code + 1) : Change env s s' code e
  | tracked {r : Refusal} {payload : Json} {c : Copy} (hrows : s'.store.rows = s.store.rows)
      (hcode : r.category.code = code) (hcopy : copyOf env r payload = some c)
      (htracked : Tracked s c (s.pending code) (s.untracked code) (s'.pending code) (s'.untracked code)) :
      Change env s s' code (.refuse r payload)
  | accepted {e : Event} {row : Row} (hrow : row ∈ s'.store.rows) (hrows : s.store.rows ⊆ s'.store.rows)
      (honly : ∀ other ∈ s'.store.rows, other ∈ s.store.rows ∨ other = row)
      (hpending : s'.pending code = (s.pending code).filter (holdsRefusedCopy · row = none))
      (huntracked : s'.untracked code = s.untracked code) : Change env s s' code e

lemma preserveQueueEvidence_ok {store store' : Store} {id : Nat} {receiptId : String} {request : Request}
    {row : Row} (h : preserveQueueEvidence env connectorId store id receiptId request = .ok (store', row)) :
    row ∈ store'.rows ∧ store.rows ⊆ store'.rows ∧ ∀ other ∈ store'.rows, other ∈ store.rows ∨ other = row := by
  unfold preserveQueueEvidence at h
  split_ifs at h with hconnector
  split at h
  · rename_i found hfound
    split_ifs at h with hreused
    cases h
    exact ⟨List.mem_of_find?_eq_some hfound, List.Subset.refl _, fun _ => .inl⟩
  · cases h
    refine ⟨List.mem_append_right _ (List.mem_singleton_self _), List.subset_append_left _ _, ?_⟩
    intro other hother
    simpa [Store.add] using hother

/-- What a refusal changes. -/
lemma change_refuse (env : Env) (connectorId : String) (s : State) (code : Code) (r : Refusal)
    (payload : Json) :
    Change env s (step env connectorId s (.refuse r payload)) code (.refuse r payload) := by
  by_cases hcode : code = r.category.code
  · subst hcode
    cases hcopy : copyOf env r payload with
    | some c => exact .tracked rfl rfl hcopy (tracked_refuse connectorId s hcopy)
    | none =>
      by_cases htype : r.messageType = queueEvidence
      · have hview : unheldOf (step env connectorId s (.refuse r payload)).alerts _ = _ :=
          unheldOf_unreadable htype hcopy
        obtain ⟨hpending, huntracked⟩ := Prod.ext_iff.1 hview
        exact .counted rfl hpending huntracked
      · refine .same rfl ?_ ?_ <;>
          simp only [step, State.pending, State.untracked, if_neg htype, unheldOf_record_other htype]
  · refine .same rfl ?_ ?_ <;> simp only [step, State.pending, State.untracked, unheldOf_record_ne hcode]

lemma change_step (env : Env) (connectorId : String) (s : State) (code : Code) (e : Event) :
    Change env s (step env connectorId s e) code e := by
  cases e with
  | refuse r payload => exact change_refuse env connectorId s code r payload
  | accept messageType now =>
    have hview : unheldOf (resolveMessageRejection s.alerts messageType none now) code =
        unheldOf s.alerts code := by
      by_cases htype : messageType = queueEvidence
      · rw [htype, unheldOf_resolve]
        simp
      · exact unheldOf_resolve_other htype code
    obtain ⟨hpending, huntracked⟩ := Prod.ext_iff.1 hview
    exact .same rfl hpending huntracked
  | acceptEvidence id receiptId request now =>
    cases hpreserve : preserveQueueEvidence env connectorId s.store id receiptId request with
    | error reason =>
      simp only [step, hpreserve]
      exact .same rfl rfl rfl
    | ok result =>
      obtain ⟨store', row⟩ := result
      obtain ⟨hrow, hrows, honly⟩ := preserveQueueEvidence_ok hpreserve
      have hview : unheldOf (resolveMessageRejection s.alerts queueEvidence (some row) now) code = _ :=
        unheldOf_resolve code
      obtain ⟨hpending, huntracked⟩ := Prod.ext_iff.1 hview
      simp only [step, hpreserve]
      exact .accepted hrow hrows honly hpending huntracked

end Step

/-! ### What holds in every run -/

/-- The copy was refused in the run. -/
def Refused (env : Env) (events : List Event) (c : Copy) : Prop :=
  ∃ r payload, Event.refuse r payload ∈ events ∧ copyOf env r payload = some c

/-- No two refused copies of the run have different bytes and the same digest. -/
def CollisionFree (env : Env) (events : List Event) : Prop :=
  ∀ r payload r' payload', .refuse r payload ∈ events → .refuse r' payload' ∈ events →
    ∀ raw ∈ receivedRaw env payload, ∀ raw' ∈ receivedRaw env payload',
      env.sha256 raw = env.sha256 raw' → raw = raw'

section Run

variable {env : Env} {connectorId : String} {store : Store} {s s' : State} {code : Code} {c d item : Copy}
  {e : Event} {events before after : List Event}

lemma Refused.mono (h : Refused env before c) (hsub : before ⊆ after) : Refused env after c := by
  obtain ⟨r, payload, hmem, hcopy⟩ := h
  exact ⟨r, payload, hsub hmem, hcopy⟩

lemma CollisionFree.mono (h : CollisionFree env after) (hsub : before ⊆ after) : CollisionFree env before :=
  fun r payload r' payload' hmem hmem' => h r payload r' payload' (hsub hmem) (hsub hmem')

/-- Equal digests are of equal bytes, and equal bytes have one checksum. -/
lemma CollisionFree.crc (h : CollisionFree env events) (hc : Refused env events c)
    (hd : Refused env events d) (hkey : c.key = d.key) : c.receivedCrc32 = d.receivedCrc32 := by
  obtain ⟨r, payload, hmem, hcopy⟩ := hc
  obtain ⟨r', payload', hmem', hcopy'⟩ := hd
  obtain ⟨-, identity, -, rfl⟩ := copyOf_eq_some hcopy
  obtain ⟨-, identity', -, rfl⟩ := copyOf_eq_some hcopy'
  have hdigest : (receivedRaw env payload).map env.sha256 = (receivedRaw env payload').map env.sha256 :=
    (Key.mk.inj hkey).2.2
  change (receivedRaw env payload).map _ = (receivedRaw env payload').map _
  cases hraw : receivedRaw env payload with
  | none =>
    rw [hraw, Option.map_none, eq_comm, Option.map_eq_none_iff] at hdigest
    rw [hdigest]
  | some raw =>
    rw [hraw, Option.map_some, eq_comm, Option.map_eq_some_iff] at hdigest
    obtain ⟨raw', hraw', heq⟩ := hdigest
    rw [hraw', h r payload r' payload' hmem hmem' raw hraw raw' hraw' heq.symm]

/-- ADD holds none of the pending copies, and each of them was refused. -/
structure Inv (env : Env) (events : List Event) (s : State) : Prop where
  outstanding : ∀ code, ∀ item ∈ s.pending code, ¬ s.Holds item
  refused : ∀ code, ∀ item ∈ s.pending code, ∃ c, Refused env events c ∧ item.Alike c

lemma State.Holds.mono (h : s.Holds c) (hrows : s.store.rows ⊆ s'.store.rows) : s'.Holds c := by
  obtain ⟨row, hrow, hholds⟩ := h
  exact ⟨row, hrows hrow, hholds⟩

lemma Tracked.pending {pending pending' : List Copy} {n n' : Nat} (h : Tracked s c pending n pending' n')
    (hitem : item ∈ pending') : item ∈ pending ∨ item.Alike c ∧ ¬ s.Holds c := by
  cases h with
  | held hholds hwithout => exact .inl (hwithout.1 hitem)
  | counted => exact .inl hitem
  | listed halike hholds hwithout =>
    rcases List.mem_append.1 hitem with hitem | hitem
    · exact .inl (hwithout.1 hitem)
    · rw [List.mem_singleton.1 hitem]
      exact .inr ⟨halike, hholds⟩

/-- A pending copy was pending before, or it was just refused. -/
lemma Change.pending (h : Change env s s' code e) (hitem : item ∈ s'.pending code) :
    item ∈ s.pending code ∨ ∃ c, Refused env [e] c ∧ item.Alike c ∧ ¬ s.Holds c := by
  cases h with
  | same hrows hpending | counted hrows hpending => exact .inl (hpending ▸ hitem)
  | accepted hrow hrows honly hpending =>
    rw [hpending] at hitem
    exact .inl (List.mem_of_mem_filter hitem)
  | @tracked r payload c hrows hcode hcopy htracked =>
    rcases htracked.pending hitem with hitem | ⟨halike, hholds⟩
    · exact .inl hitem
    · exact .inr ⟨c, ⟨r, payload, List.mem_singleton_self _, hcopy⟩, halike, hholds⟩

/-- A pending copy of before is not held by what was stored since. -/
lemma Change.not_holds (h : Change env s s' code e) (hitem : item ∈ s'.pending code)
    (hbefore : ¬ s.Holds item) : ¬ s'.Holds item := by
  rintro ⟨row, hrow, hholds⟩
  cases h with
  | same hrows | counted hrows | tracked hrows => exact hbefore ⟨row, hrows ▸ hrow, hholds⟩
  | accepted hnew hrows honly hpending =>
    rcases honly row hrow with hold | rfl
    · exact hbefore ⟨row, hold, hholds⟩
    · rw [hpending] at hitem
      exact hholds (by simpa using (List.mem_filter.1 hitem).2)

lemma Inv.step (h : Inv env events s) (e : Event) :
    Inv env (events ++ [e]) (step env connectorId s e) where
  outstanding := by
    intro code item hitem
    have hchange := change_step env connectorId s code e
    refine hchange.not_holds hitem ?_
    obtain hitem | ⟨c, -, halike, hholds⟩ := hchange.pending hitem
    · exact h.outstanding code item hitem
    · rwa [halike.holds_iff]
  refused := by
    intro code item hitem
    obtain hitem | ⟨c, hc, halike, -⟩ := (change_step env connectorId s code e).pending hitem
    · obtain ⟨c, hc, halike⟩ := h.refused code item hitem
      exact ⟨c, hc.mono (List.subset_append_left _ _), halike⟩
    · exact ⟨c, hc.mono (List.subset_append_right _ _), halike⟩

lemma run_concat : run env connectorId s (events ++ [e]) = step env connectorId (run env connectorId s events) e :=
  List.foldl_concat ..

lemma inv_run (env : Env) (connectorId : String) (store : Store) (events : List Event) :
    Inv env events (run env connectorId (.start store) events) := by
  induction events using List.reverseRecOn with
  | nil => exact ⟨nofun, nofun⟩
  | append_singleton events e ih =>
    rw [run_concat]
    exact ih.step e

lemma Change.rows_subset (h : Change env s s' code e) : s.store.rows ⊆ s'.store.rows := by
  cases h with
  | same hrows | counted hrows | tracked hrows => rw [hrows]; exact List.Subset.refl _
  | accepted hrow hrows => exact hrows

lemma Tracked.untracked_le {pending pending' : List Copy} {n n' : Nat}
    (h : Tracked s c pending n pending' n') : n ≤ n' := by
  cases h <;> omega

lemma Change.untracked_le (h : Change env s s' code e) : s.untracked code ≤ s'.untracked code := by
  cases h with
  | same hrows hpending huntracked => exact huntracked.ge
  | counted hrows hpending huntracked => omega
  | accepted hrow hrows honly hpending huntracked => exact huntracked.ge
  | tracked hrows hcode hcopy htracked => exact htracked.untracked_le

lemma untracked_le_run (after : List Event) :
    (run env connectorId s events).untracked code ≤ (run env connectorId s (events ++ after)).untracked code := by
  induction after using List.reverseRecOn with
  | nil => rw [List.append_nil]
  | append_singleton after e ih =>
    rw [← List.append_assoc, run_concat]
    exact ih.trans (change_step _ _ _ _ e).untracked_le

/-- A pending copy stays, or a new refusal of its key takes its place, or ADD holds the new copy. -/
lemma Tracked.replaced {pending pending' : List Copy} {n n' : Nat} (h : Tracked s d pending n pending' n')
    (hitem : item ∈ pending) :
    item ∈ pending' ∨ item.key = d.key ∧ (s.Holds d ∨ ∃ copy ∈ pending', copy.Alike d) := by
  by_cases hkey : item.key = d.key
  · cases h with
    | held hholds => exact .inr ⟨hkey, .inl hholds⟩
    | counted => exact .inl hitem
    | listed halike hholds hwithout =>
      exact .inr ⟨hkey, .inr ⟨_, List.mem_append_right _ (List.mem_singleton_self _), halike⟩⟩
  · left
    cases h with
    | held hholds hwithout => exact hwithout.2 item hitem hkey
    | counted => exact hitem
    | listed halike hholds hwithout => exact List.mem_append_left _ (hwithout.2 item hitem hkey)

/-- A pending copy stays, or ADD now holds it, or a new refusal of its key takes its place. -/
lemma Change.replaced (h : Change env s s' code e) (hitem : item ∈ s.pending code) :
    item ∈ s'.pending code ∨ s'.Holds item ∨
      ∃ r payload d, e = .refuse r payload ∧ r.category.code = code ∧ copyOf env r payload = some d ∧
        item.key = d.key ∧ (s'.Holds d ∨ ∃ copy ∈ s'.pending code, copy.Alike d) := by
  cases h with
  | same hrows hpending | counted hrows hpending => exact .inl (hpending ▸ hitem)
  | @accepted _ row hrow hrows honly hpending =>
    by_cases hholds : holdsRefusedCopy item row = none
    · left
      rw [hpending]
      exact List.mem_filter.2 ⟨hitem, decide_eq_true hholds⟩
    · exact .inr (.inl ⟨row, hrow, hholds⟩)
  | @tracked r payload d hrows hcode hcopy htracked =>
    obtain hitem | ⟨hkey, hd⟩ := htracked.replaced hitem
    · exact .inl hitem
    · refine .inr (.inr ⟨r, payload, d, rfl, hcode, hcopy, hkey, hd.imp_left fun hholds => ?_⟩)
      exact hholds.mono (by rw [hrows]; exact List.Subset.refl _)

lemma State.Holds.reason (h : s.Holds c) : c.reason ∉ operatorOnlyReasons := by
  obtain ⟨row, -, hholds⟩ := h
  exact (holdsRefusedCopy_ne_none.1 hholds).1

/-- ADD holds a copy if it holds another refused copy with its key. -/
lemma State.Holds.of_key (h : s.Holds d) (hfree : CollisionFree env events) (hc : Refused env events c)
    (hd : Refused env events d) (hkey : d.key = c.key) (hreason : c.reason ∉ operatorOnlyReasons) :
    s.Holds c := by
  have hcrc := hfree.crc hd hc hkey
  have hother := h.reason
  obtain ⟨row, hrow, hholds⟩ := h
  refine ⟨row, hrow, ?_⟩
  rwa [← holdsRefusedCopy_congr hkey hcrc hother hreason]

/-- The copy is on the list of the alert, by its identity and both digests. -/
def State.Lists (s : State) (code : Code) (c : Copy) : Prop := ∃ item ∈ s.pending code, item.key = c.key

/-- A copy leaves the list only when ADD holds it. -/
lemma lists_or_holds_step (hfree : CollisionFree env (events ++ [e])) (hinv : Inv env events s)
    (hc : Refused env events c) (hreason : c.reason ∉ operatorOnlyReasons) (hlists : s.Lists code c) :
    (step env connectorId s e).Lists code c ∨ (step env connectorId s e).Holds c := by
  obtain ⟨item, hitem, hkey⟩ := hlists
  have hc' := hc.mono (List.subset_append_left events [e])
  obtain hitem' | hholds | ⟨r, payload, d, rfl, -, hcopy, hkeyd, hd⟩ :=
    (change_step env connectorId s code e).replaced hitem
  · exact .inl ⟨item, hitem', hkey⟩
  · obtain ⟨d, hd, halike⟩ := hinv.refused code item hitem
    have hd' := hd.mono (List.subset_append_left events [e])
    exact .inr ((halike.holds_iff.1 hholds).of_key hfree hc' hd' (halike.1.symm.trans hkey) hreason)
  · rcases hd with hholds | ⟨copy, hcopy', halike⟩
    · have hd : Refused env (events ++ [.refuse r payload]) d := ⟨r, payload, by simp, hcopy⟩
      exact .inr (hholds.of_key hfree hc' hd (hkeyd.symm.trans hkey) hreason)
    · exact .inl ⟨copy, hcopy', halike.1.trans (hkeyd.symm.trans hkey)⟩

lemma kept_run (hfree : CollisionFree env (events ++ after)) (hc : Refused env events c)
    (hreason : c.reason ∉ operatorOnlyReasons)
    (h : (run env connectorId (.start store) events).Lists code c ∨
      (run env connectorId (.start store) events).Holds c) :
    (run env connectorId (.start store) (events ++ after)).Lists code c ∨
      (run env connectorId (.start store) (events ++ after)).Holds c := by
  induction after using List.reverseRecOn with
  | nil => simpa using h
  | append_singleton after e ih =>
    rw [← List.append_assoc] at hfree ⊢
    rw [run_concat]
    rcases ih (hfree.mono (List.subset_append_left _ _)) with hlists | hholds
    · exact lists_or_holds_step hfree (inv_run env connectorId store _)
        (hc.mono (List.subset_append_left _ _)) hreason hlists
    · exact .inr (hholds.mono (change_step env connectorId _ code e).rows_subset)

/-- A refusal lists its copy or counts it, unless ADD holds the copy. -/
lemma Tracked.cases {pending pending' : List Copy} {n n' : Nat} (h : Tracked s c pending n pending' n') :
    s.Holds c ∨ (∃ item ∈ pending', item.Alike c) ∨ n < n' := by
  cases h with
  | held hholds => exact .inl hholds
  | counted => exact .inr (.inr (Nat.lt_succ_self n))
  | listed halike => exact .inr (.inl ⟨_, List.mem_append_right _ (List.mem_singleton_self _), halike⟩)

/-! A record of one byte, which ADD holds with another provenance. -/

def sampleDigest : String := "0000000000000000000000000000000000000000000000000000000000000000"

def sampleEnv : Env := ⟨fun _ => some [1], fun _ => sampleDigest, fun _ => "p"⟩

def sampleIdentity : Identity := ⟨"attendance", "g1", "0:0:1"⟩

def samplePayload : Json :=
  .obj [("queue", .str "attendance"), ("queue_generation", .str "g1"), ("record_id", .str "0:0:1"),
    ("payload_digest", .str sampleDigest), ("raw_b64", .str "AQ==")]

def sampleRefusal (reason : String) : Refusal :=
  ⟨queueEvidence, .evidenceInvalid, "EvidenceRejected", [], "m1", none, none, 0, some reason, none, []⟩

def sampleCopy (reason : String) : Copy :=
  ⟨sampleIdentity, some sampleDigest, some sampleDigest, some 1, some (ZoneLite.dqCrc32 [1]), reason, "m1", 1, 0, 0⟩

def sampleRow : Row := ⟨1, "receipt", sampleIdentity, sampleDigest, "other", 1⟩

lemma isDigest_sampleRow : isDigest sampleRow.payloadDigest = true := by decide +kernel

def sampleStore : Store :=
  ⟨[sampleRow], List.nodup_singleton _, List.forall_mem_singleton.2 isDigest_sampleRow⟩

lemma copyOf_sample {reason : String} (h : reason = identityReused ∨ reason = connectorMismatch) :
    copyOf sampleEnv (sampleRefusal reason) samplePayload = some (sampleCopy reason) := by
  rcases h with rfl | rfl <;> decide +kernel

/-- A refused copy stays listed or counted until ADD holds it, a lookup finds every row that holds it, and a
copy that ADD holds is not listed, in whichever order the messages came. -/
theorem refused_evidence_never_forgotten (env : Env) (connectorId : String) (store : Store) :
    (∀ before r payload after c, CollisionFree env (before ++ .refuse r payload :: after) →
      copyOf env r payload = some c → c.reason ∉ operatorOnlyReasons →
        let s₀ := run env connectorId (.start store) before
        let s₁ := run env connectorId (.start store) (before ++ [.refuse r payload])
        let s := run env connectorId (.start store) (before ++ .refuse r payload :: after)
        s.Lists r.category.code c ∨ s.Holds c ∨
          s₀.untracked r.category.code < s₁.untracked r.category.code ∧
            s₁.untracked r.category.code ≤ s.untracked r.category.code) ∧
    (∀ (held : Store) copy, findHeldCopy held copy ≠ none ↔
      ∃ row ∈ held.rows, holdsRefusedCopy copy row ≠ none) ∧
    (∀ events c, CollisionFree env events → Refused env events c →
      (∀ d, Refused env events d → d.key = c.key → d.reason ∉ operatorOnlyReasons) →
        (run env connectorId (.start store) events).Holds c →
          ∀ code, ¬ (run env connectorId (.start store) events).Lists code c) := by
  refine ⟨?_, fun held copy => findHeldCopy_ne_none (s := .start held), ?_⟩
  · intro before r payload after c hfree hcopy hreason
    dsimp only
    have hsplit : before ++ .refuse r payload :: after = (before ++ [.refuse r payload]) ++ after := by simp
    rw [hsplit] at hfree ⊢
    have hc : Refused env (before ++ [.refuse r payload]) c := ⟨r, payload, by simp, hcopy⟩
    have htracked := (tracked_refuse connectorId (run env connectorId (.start store) before) hcopy).cases
    rw [← run_concat] at htracked
    rw [← or_assoc]
    obtain hholds | ⟨item, hitem, halike⟩ | hcounted := htracked
    · refine .inl (kept_run hfree hc hreason (.inr ?_))
      rw [run_concat]
      exact hholds.mono (change_step env connectorId _ r.category.code _).rows_subset
    · exact .inl (kept_run hfree hc hreason (.inl ⟨item, hitem, halike.1⟩))
    · exact .inr ⟨hcounted, untracked_le_run after⟩
  · intro events c hfree hc hreasons hholds code ⟨item, hitem, hkey⟩
    have hinv := inv_run env connectorId store events
    obtain ⟨d, hd, halike⟩ := hinv.refused code item hitem
    have hkeyd : d.key = c.key := halike.1.symm.trans hkey
    have hholdsd := hholds.of_key hfree hd hc hkeyd.symm (hreasons d hd hkeyd)
    exact hinv.outstanding code item hitem (halike.holds_iff.2 hholdsd)

theorem refused_evidence_never_forgotten_one :
    (run sampleEnv "c1" (.start sampleStore) [.refuse (sampleRefusal connectorMismatch) samplePayload]).Holds
        (sampleCopy connectorMismatch) ∧
      ∀ code, ¬ (run sampleEnv "c1" (.start sampleStore)
        [.refuse (sampleRefusal connectorMismatch) samplePayload]).Lists code (sampleCopy connectorMismatch) := by
  have hcopy := copyOf_sample (.inr (Eq.refl connectorMismatch))
  have hholds : (run sampleEnv "c1" (.start sampleStore)
      [.refuse (sampleRefusal connectorMismatch) samplePayload]).Holds (sampleCopy connectorMismatch) :=
    ⟨sampleRow, List.mem_singleton_self _, by decide +kernel⟩
  refine ⟨hholds, (refused_evidence_never_forgotten sampleEnv "c1" sampleStore).2.2 _ _ ?_ ?_ ?_ hholds⟩
  · intro r payload r' payload' hr hr' raw hraw raw' hraw' _
    obtain ⟨rfl, rfl⟩ := Event.refuse.inj (List.mem_singleton.1 hr)
    obtain ⟨rfl, rfl⟩ := Event.refuse.inj (List.mem_singleton.1 hr')
    exact Option.mem_unique hraw hraw'
  · exact ⟨_, _, List.mem_singleton_self _, hcopy⟩
  · rintro d ⟨r, payload, hr, hd⟩ -
    obtain ⟨rfl, rfl⟩ := Event.refuse.inj (List.mem_singleton.1 hr)
    rw [hcopy] at hd
    cases hd
    decide

/-- The copy is on the list, for an operator. -/
def State.ListsForOperator (s : State) (code : Code) (c : Copy) : Prop :=
  ∃ item ∈ s.pending code, item.key = c.key ∧ item.reason ∈ operatorOnlyReasons

lemma listsForOperator_step (hlists : s.ListsForOperator code c)
    (h : ∀ r payload d, e = .refuse r payload → r.category.code = code → copyOf env r payload = some d →
      d.key = c.key → d.reason ∈ operatorOnlyReasons) :
    (step env connectorId s e).ListsForOperator code c := by
  obtain ⟨item, hitem, hkey, hreason⟩ := hlists
  obtain hitem' | hholds | ⟨r, payload, d, rfl, hcode, hcopy, hkeyd, hd⟩ :=
    (change_step env connectorId s code e).replaced hitem
  · exact ⟨item, hitem', hkey, hreason⟩
  · exact absurd hreason hholds.reason
  · have hkeyc : d.key = c.key := hkeyd.symm.trans hkey
    have hop := h r payload d rfl hcode hcopy hkeyc
    rcases hd with hholds | ⟨copy, hcopy', halike⟩
    · exact absurd hop hholds.reason
    · exact ⟨copy, hcopy', halike.1.trans hkeyc, halike.2.2 ▸ hop⟩

lemma listsForOperator_run (hlists : (run env connectorId s events).ListsForOperator code c)
    (h : ∀ r payload d, .refuse r payload ∈ after → r.category.code = code → copyOf env r payload = some d →
      d.key = c.key → d.reason ∈ operatorOnlyReasons) :
    (run env connectorId s (events ++ after)).ListsForOperator code c := by
  induction after using List.reverseRecOn with
  | nil => rwa [List.append_nil]
  | append_singleton after e ih =>
    rw [← List.append_assoc, run_concat]
    refine listsForOperator_step (ih fun r payload d hmem => h r payload d ?_) ?_
    · exact List.mem_append_left _ hmem
    · rintro r payload d rfl
      exact h r payload d (by simp)

/-- A refusal for an operator stays listed or counted while no refusal of the same copy has another
reason. -/
theorem operator_only_refusal_kept (env : Env) (connectorId : String) (store : Store) (before : List Event)
    (r : Refusal) (payload : Json) (after : List Event) (c : Copy) (hcopy : copyOf env r payload = some c)
    (hreason : c.reason ∈ operatorOnlyReasons)
    (hsame : ∀ r' payload' d, .refuse r' payload' ∈ after → r'.category.code = r.category.code →
      copyOf env r' payload' = some d → d.key = c.key → d.reason ∈ operatorOnlyReasons) :
    let s₀ := run env connectorId (.start store) before
    let s₁ := run env connectorId (.start store) (before ++ [.refuse r payload])
    let s := run env connectorId (.start store) (before ++ .refuse r payload :: after)
    s.ListsForOperator r.category.code c ∨
      s₀.untracked r.category.code < s₁.untracked r.category.code ∧
        s₁.untracked r.category.code ≤ s.untracked r.category.code := by
  dsimp only
  have hsplit : before ++ .refuse r payload :: after = (before ++ [.refuse r payload]) ++ after := by simp
  rw [hsplit]
  have htracked := (tracked_refuse connectorId (run env connectorId (.start store) before) hcopy).cases
  rw [← run_concat] at htracked
  obtain hholds | ⟨item, hitem, halike⟩ | hcounted := htracked
  · exact absurd hreason hholds.reason
  · exact .inl (listsForOperator_run ⟨item, hitem, halike.1, halike.2.2 ▸ hreason⟩ hsame)
  · exact .inr ⟨hcounted, untracked_le_run after⟩

theorem operator_only_refusal_kept_twice :
    (run sampleEnv "c1" (.start sampleStore) [.refuse (sampleRefusal identityReused) samplePayload,
      .refuse (sampleRefusal identityReused) samplePayload]).ListsForOperator .deviceMessageRejected
        (sampleCopy identityReused) := by
  have hcopy := copyOf_sample (.inl (Eq.refl identityReused))
  refine (operator_only_refusal_kept sampleEnv "c1" sampleStore [] (sampleRefusal identityReused) samplePayload
    [.refuse (sampleRefusal identityReused) samplePayload] _ hcopy (by decide) ?_).resolve_right ?_
  · rintro r payload d hr - hd -
    obtain ⟨rfl, rfl⟩ := Event.refuse.inj (List.mem_singleton.1 hr)
    rw [hcopy] at hd
    cases hd
    decide
  · decide +kernel

/-- A refusal of the same copy for another reason finds that ADD holds the copy and closes the alert, also if
the copy was refused for an operator. -/
theorem operator_only_refusal_replaced :
    copyOf sampleEnv (sampleRefusal identityReused) samplePayload = some (sampleCopy identityReused) ∧
      (sampleCopy identityReused).reason ∈ operatorOnlyReasons ∧
      (run sampleEnv "c1" (.start sampleStore)
        [.refuse (sampleRefusal identityReused) samplePayload]).ListsForOperator .deviceMessageRejected
          (sampleCopy identityReused) ∧
      ∀ code, (run sampleEnv "c1" (.start sampleStore) [.refuse (sampleRefusal identityReused) samplePayload,
        .refuse (sampleRefusal connectorMismatch) samplePayload]).alerts code = none := by
  refine ⟨copyOf_sample (.inl rfl), by decide, ⟨sampleCopy identityReused, ?_, rfl, by decide⟩, ?_⟩
  · decide +kernel
  · intro code
    rw [← Option.isNone_iff_eq_none]
    cases code <;> decide +kernel

end Run

end QueueEvidence
