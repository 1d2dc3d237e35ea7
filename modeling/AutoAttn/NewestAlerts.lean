import AutoAttn.BoundedListing
import AutoAttn.Json

/-!
# Alerts about newest-record slots

ADD keeps one open alert for the slots whose punch it has not received, and one for the punches that an
automatic release held back. Each lists at most 200 entries and carries the number of the others.
-/

namespace NewestAlerts

open BoundedListing

/-- `ALERT_SLOT_LIMIT` -/
def alertSlotLimit : Nat := 200

/-! ### Slots without their punch -/

/-- `_slot_key` -/
structure Slot where
  generation : Nat
  sourceEpochId : Option Nat
  ordinal : Nat
deriving DecidableEq

/-- An entry of the alert. The evidence holds its other members. -/
structure Entry where
  slot : Slot
  firstSeenAt : Nat
  causes : List String
  evidence : List (String × Json) := []

/-- The open alert, with the members of its details. -/
structure UnreceivedAlert where
  jobId : Option String
  coverageId : Option String
  slots : List Entry
  ordinals : List Nat
  slotCount : Nat
  slotsNotListed : Nat
  oldestOrdinal : Option Nat

/-- A call of `alert_unreceived` with the members of `details`. -/
structure Unreceived where
  now : Nat
  cause : String
  slots : List (Slot × List (String × Json))
  jobId : Option String := none
  coverageId : Option String := none

/-- The key of the order: the ordinal, then the slot. -/
def sortKey (slot : Slot) : Nat ×ₗ Nat ×ₗ WithBot Nat :=
  toLex (slot.ordinal, toLex (slot.generation, slot.sourceEpochId))

/-- `_bounded`: the entries that an alert can show, and the number of the others. -/
def bounded (entries : List Entry) (overflow : Nat) : List Entry × Nat :=
  let kept := (entries.mergeSort fun a b => sortKey a.slot ≤ sortKey b.slot).take alertSlotLimit
  (kept, overflow + (entries.length - kept.length))

/-- `_write_unreceived`, or `none` if the alert is resolved. -/
def writeUnreceived (entries : List Entry) (overflow : Nat) (jobId coverageId : Option String) :
    Option UnreceivedAlert :=
  if entries = [] ∧ overflow = 0 then none
  else
    let (kept, overflow) := bounded entries overflow
    some {
      jobId, coverageId
      slots := kept
      ordinals := (keys (·.slot.ordinal) kept).sort (· ≤ ·)
      slotCount := kept.length + overflow
      slotsNotListed := overflow
      oldestOrdinal := (kept.map (·.slot.ordinal)).min? }

/-- A slot of a call beside the entry that the alert has for it. -/
def mergeEntry (now : Nat) (cause : String) (entries : List Entry) (slot : Slot)
    (evidence : List (String × Json)) : Entry :=
  let current := (entries.find? (·.slot = slot)).getD ⟨slot, now, [], []⟩
  { current with
    causes := (insert cause current.causes.toFinset).sort (· ≤ ·)
    evidence := evidence.foldl (fun members m => put Prod.fst m members) current.evidence }

/-- The entries of the alert with those of a call. -/
def mergeSlots (call : Unreceived) (entries : List Entry) : List Entry :=
  call.slots.foldl (fun entries s =>
    put (·.slot) (mergeEntry call.now call.cause entries s.1 s.2) entries) entries

/-- `alert_unreceived` -/
def alertUnreceived (alert : Option UnreceivedAlert) (call : Unreceived) : Option UnreceivedAlert :=
  if call.slots = [] then alert
  else
    let entries := mergeSlots call (alert.elim [] (·.slots))
    writeUnreceived entries (alert.elim 0 (·.slotsNotListed)) (call.jobId <|> alert.bind (·.jobId))
      (call.coverageId <|> alert.bind (·.coverageId))

/-! ### Punches held back -/

/-- The open alert about held punches. -/
structure HeldAlert where
  attendanceEventIds : List Nat
  eventCount : Nat
  eventsNotListed : Nat

/-- `alert_release_held` -/
def alertReleaseHeld (alert : Option HeldAlert) (eventId : Nat) : Option HeldAlert :=
  let previous := alert.elim [] (·.attendanceEventIds)
  let ids := (insert eventId previous.toFinset).sort (· ≤ ·)
  if alert.isSome ∧ ids = previous.mergeSort then alert
  else
    let kept := ids.take alertSlotLimit
    let notListed := alert.elim 0 (·.eventsNotListed) + ids.length - kept.length
    some { attendanceEventIds := kept, eventCount := kept.length + notListed, eventsNotListed := notListed }

/-! ### Counters -/

/-- The slots of the open alert. -/
def unreceived : Counter (Option UnreceivedAlert) Unreceived Slot where
  init := none
  step := alertUnreceived
  reports call := keys Prod.fst call.slots
  listed alert := alert.elim ∅ fun a => keys (·.slot) a.slots
  count alert := alert.elim 0 (·.slotCount)

/-- The punches of the open alert. -/
def releaseHeld : Counter (Option HeldAlert) Nat Nat where
  init := none
  step := alertReleaseHeld
  reports eventId := {eventId}
  listed alert := alert.elim ∅ fun a => a.attendanceEventIds.toFinset
  count alert := alert.elim 0 (·.eventCount)

/-- An alert lists each slot once, and its count covers the listed ones and the others. -/
def SlotsInv (alert : Option UnreceivedAlert) : Prop :=
  ∀ a ∈ alert, (a.slots.map (·.slot)).Nodup ∧ a.slotCount = a.slots.length + a.slotsNotListed

@[simp] lemma mergeEntry_slot (now : Nat) (cause : String) (entries : List Entry) (slot : Slot)
    (evidence : List (String × Json)) : (mergeEntry now cause entries slot evidence).slot = slot := by
  rw [mergeEntry]
  cases h : entries.find? (·.slot = slot) with
  | none => rfl
  | some entry => simpa using List.find?_some h

lemma keys_mergeSlots (call : Unreceived) (entries : List Entry) :
    keys (·.slot) (mergeSlots call entries) = keys (·.slot) entries ∪ keys Prod.fst call.slots := by
  rw [mergeSlots]
  induction call.slots generalizing entries with
  | nil => simp [keys]
  | cons s slots ih =>
    rw [List.foldl_cons, ih, keys_put, mergeEntry_slot]
    simp only [keys, List.map_cons, List.toFinset_cons]
    rw [Finset.insert_union, Finset.union_insert]

lemma nodup_mergeSlots (call : Unreceived) {entries : List Entry} (h : (entries.map (·.slot)).Nodup) :
    ((mergeSlots call entries).map (·.slot)).Nodup := by
  rw [mergeSlots]
  induction call.slots generalizing entries with
  | nil => exact h
  | cons s slots ih => exact ih (nodup_put h)

/-- What an alert that is written lists and counts. -/
lemma writeUnreceived_eq_some {entries : List Entry} (hne : entries ≠ []) (overflow : Nat)
    (jobId coverageId : Option String) (hnodup : (entries.map (·.slot)).Nodup) :
    ∃ a, writeUnreceived entries overflow jobId coverageId = some a ∧ (a.slots.map (·.slot)).Nodup ∧
      keys (·.slot) a.slots ⊆ keys (·.slot) entries ∧ a.slotCount = entries.length + overflow ∧
      a.slotCount = a.slots.length + a.slotsNotListed := by
  refine ⟨_, if_neg fun h => hne h.1, ?_, ?_, ?_, rfl⟩
  · have hsort := (List.mergeSort_perm entries fun a b => sortKey a.slot ≤ sortKey b.slot).map (·.slot)
    exact (hsort.nodup_iff.2 hnodup).sublist ((List.take_sublist _ _).map _)
  · intro k hk
    obtain ⟨entry, hentry, heq⟩ := mem_keys.1 hk
    exact mem_keys.2 ⟨entry, List.mem_mergeSort.1 (List.mem_of_mem_take hentry), heq⟩
  · simp only [List.length_take, List.length_mergeSort]
    omega

/-- A call counts the slots that are not listed. -/
lemma alertUnreceived_spec {alert : Option UnreceivedAlert} (h : SlotsInv alert) (call : Unreceived) :
    SlotsInv (alertUnreceived alert call) ∧
      unreceived.count (alertUnreceived alert call) =
        unreceived.count alert + (unreceived.reports call \ unreceived.listed alert).card ∧
      unreceived.listed (alertUnreceived alert call) ⊆ unreceived.listed alert ∪ unreceived.reports call := by
  by_cases hslots : call.slots = []
  · have hnone : unreceived.reports call = ∅ := by simp [unreceived, keys, hslots]
    rw [alertUnreceived, if_pos hslots, hnone]
    simp [h]
  · rw [alertUnreceived, if_neg hslots]
    -- The entries before the call, and how many slots they and the alert count.
    obtain ⟨entries, hentries⟩ : ∃ entries, alert.elim [] (·.slots) = entries := ⟨_, rfl⟩
    have hnodup : (entries.map (·.slot)).Nodup := by
      cases alert with
      | none => simp [← hentries]
      | some a => exact hentries ▸ (h a rfl).1
    have hlisted : unreceived.listed alert = keys (·.slot) entries := by
      cases alert with
      | none => simp [unreceived, keys, ← hentries]
      | some a => rw [← hentries]; rfl
    have hcount : unreceived.count alert = entries.length + alert.elim 0 (·.slotsNotListed) := by
      cases alert with
      | none => simp [unreceived, ← hentries]
      | some a => exact hentries ▸ (h a rfl).2
    have hkeys := keys_mergeSlots call entries
    have hmerged := nodup_mergeSlots call hnodup
    have hlength : (mergeSlots call entries).length =
        entries.length + (unreceived.reports call \ keys (·.slot) entries).card := by
      rw [← card_keys hmerged, hkeys, ← Finset.union_sdiff_self_eq_union,
        Finset.card_union_of_disjoint Finset.disjoint_sdiff, card_keys hnodup]
      rfl
    have hne : mergeSlots call entries ≠ [] := by
      obtain ⟨s, hs⟩ := List.exists_mem_of_ne_nil _ hslots
      have hmem : s.1 ∈ keys (·.slot) (mergeSlots call entries) := by
        rw [hkeys]
        exact Finset.mem_union_right _ (mem_keys.2 ⟨s, hs, rfl⟩)
      obtain ⟨entry, hentry, -⟩ := mem_keys.1 hmem
      exact List.ne_nil_of_mem hentry
    rw [hentries]
    obtain ⟨a, ha, hslots', hsubset, htotal, hsum⟩ := writeUnreceived_eq_some hne
      (alert.elim 0 (·.slotsNotListed)) (call.jobId <|> alert.bind (·.jobId))
      (call.coverageId <|> alert.bind (·.coverageId)) hmerged
    simp only [ha]
    refine ⟨?_, ?_, ?_⟩
    · rintro a' ⟨⟩
      exact ⟨hslots', hsum⟩
    · rw [hlisted, hcount]
      change a.slotCount = _
      rw [htotal, hlength]
      omega
    · rw [hlisted]
      exact hsubset.trans hkeys.subset

lemma unreceived_sound : unreceived.Sound SlotsInv where
  init := nofun
  count_init := rfl
  listed_init := rfl
  inv _ call h := (alertUnreceived_spec h call).1
  count _ call h := (alertUnreceived_spec h call).2.1
  listed _ call h := (alertUnreceived_spec h call).2.2

/-- An alert lists each punch once. -/
def HeldInv (alert : Option HeldAlert) : Prop :=
  ∀ a ∈ alert, a.attendanceEventIds.Nodup ∧ a.eventCount = a.attendanceEventIds.length + a.eventsNotListed

lemma alertReleaseHeld_spec {alert : Option HeldAlert} (h : HeldInv alert) (eventId : Nat) :
    HeldInv (alertReleaseHeld alert eventId) ∧
      releaseHeld.count (alertReleaseHeld alert eventId) =
        releaseHeld.count alert + ({eventId} \ releaseHeld.listed alert).card ∧
      releaseHeld.listed (alertReleaseHeld alert eventId) ⊆ releaseHeld.listed alert ∪ {eventId} := by
  obtain ⟨previous, hprevious⟩ : ∃ ids, alert.elim [] (·.attendanceEventIds) = ids := ⟨_, rfl⟩
  have hnodup : previous.Nodup := by
    cases alert with
    | none => simp [← hprevious]
    | some a => exact hprevious ▸ (h a rfl).1
  have hlisted : releaseHeld.listed alert = previous.toFinset := by
    cases alert with
    | none => simp [releaseHeld, ← hprevious]
    | some a => rw [← hprevious]; rfl
  have hcount : releaseHeld.count alert = previous.length + alert.elim 0 (·.eventsNotListed) := by
    cases alert with
    | none => simp [releaseHeld, ← hprevious]
    | some a => exact hprevious ▸ (h a rfl).2
  have hcard : (insert eventId previous.toFinset).card =
      previous.length + ({eventId} \ previous.toFinset).card := by
    rw [Finset.insert_eq, Finset.union_comm, ← Finset.union_sdiff_self_eq_union,
      Finset.card_union_of_disjoint Finset.disjoint_sdiff, List.toFinset_card_of_nodup hnodup]
  simp only [alertReleaseHeld, hprevious]
  rw [hlisted]
  split_ifs with hsame
  · -- The punch is listed already.
    have hmem : eventId ∈ previous := by
      have hids : eventId ∈ (insert eventId previous.toFinset).sort (· ≤ ·) := by simp
      rw [hsame.2] at hids
      exact List.mem_mergeSort.1 hids
    refine ⟨h, ?_, hlisted ▸ Finset.subset_union_left⟩
    have hempty : {eventId} \ previous.toFinset = ∅ := by simpa using hmem
    rw [hempty, Finset.card_empty, Nat.add_zero]
  · refine ⟨?_, ?_, ?_⟩
    · rintro a ⟨⟩
      exact ⟨(Finset.sort_nodup _ _).sublist (List.take_sublist _ _), rfl⟩
    · rw [hcount]
      simp only [releaseHeld, Option.elim_some, List.length_take, Finset.length_sort]
      omega
    · intro k hk
      have hk' : k ∈ (insert eventId previous.toFinset).sort (· ≤ ·) :=
        List.mem_of_mem_take (List.mem_toFinset.1 hk)
      rw [Finset.mem_sort, Finset.insert_eq, Finset.union_comm] at hk'
      exact hk'

lemma releaseHeld_sound : releaseHeld.Sound HeldInv where
  init := nofun
  count_init := rfl
  listed_init := rfl
  inv _ eventId h := (alertReleaseHeld_spec h eventId).1
  count _ eventId h := (alertReleaseHeld_spec h eventId).2.1
  listed _ eventId h := (alertReleaseHeld_spec h eventId).2.2

def manySlots : Unreceived where
  now := 0
  cause := "HELD_NEWEST_READ"
  slots := (List.range (alertSlotLimit + 1)).map fun ordinal => (⟨1, some 1, ordinal⟩, [])

lemma card_reports_manySlots : (unreceived.reports manySlots).card = alertSlotLimit + 1 := by
  have hnodup : (manySlots.slots.map Prod.fst).Nodup := by
    rw [manySlots, List.map_map]
    refine List.nodup_range.map fun n m h => ?_
    simpa using h
  change (keys Prod.fst manySlots.slots).card = _
  rw [card_keys hnodup, manySlots, List.length_map, List.length_range]

lemma card_listed_le (alert : Option UnreceivedAlert) {call : Unreceived} (h : call.slots ≠ []) :
    (unreceived.listed (unreceived.step alert call)).card ≤ alertSlotLimit := by
  change (unreceived.listed (alertUnreceived alert call)).card ≤ _
  rw [alertUnreceived, if_neg h, writeUnreceived]
  split_ifs
  · exact Nat.zero_le _
  · refine (List.toFinset_card_le _).trans ?_
    simp only [List.length_map, List.length_take]
    omega

end NewestAlerts
