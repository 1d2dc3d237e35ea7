import AutoAttn.UniqueKeys
import AutoAttn.Zkt.OccurrenceMatch

/-!
# Soundness of the proposed links

Whether the inputs are accepted, and the decision for each observation, depend only on which rows there are
and not on their order. The links are one to one, and each proposal is forced by the facts.
-/

namespace Zkt

open Checks

variable {digest : Json → String} {window : MatchWindow} {source source' : List SourceOccurrence}
  {live live' : List LiveObservation} {prior prior' : List Binding}

/-! ### Which inputs are accepted -/

/-- The key of a row with usable facts. -/
def SourceOccurrence.key (row : SourceOccurrence) : Option FactKey := row.readKey.toOption.join

def LiveObservation.key (row : LiveObservation) : Option FactKey := (factKey row.facts).toOption.join

def SourceOccurrence.entry (digest : Json → String) (row : SourceOccurrence) : SourceEntry :=
  ⟨row.identity digest, row.ordinal, row.key⟩

def LiveObservation.entry (digest : Json → String) (row : LiveObservation) : LiveEntry :=
  ⟨row.identity digest, row.key⟩

/-- The inputs on which `propose_matches` does not raise. -/
structure Accepts (digest : Json → String) (window : MatchWindow) (source : List SourceOccurrence)
    (live : List LiveObservation) (prior : List Binding) : Prop where
  bounds : WindowValid window source.length live.length prior.length
  gapless : source.length = window.endOrdinal - window.startOrdinal
  rows : ∀ row ∈ source, SourceInWindow window row ∧ ∃ key, row.readKey = .ok key
  ordinals : (source.map (·.ordinal)).Nodup
  occurrences : (source.map (·.identity digest)).Nodup
  observed : ∀ row ∈ live, LiveInWindow window row ∧ ∃ key, factKey row.facts = .ok key
  observations : (live.map (·.identity digest)).Nodup
  links : ∀ row ∈ prior, PriorValid (source.map (·.entry digest)) (live.map (·.entry digest)) row
  boundLive : (prior.map (·.observationId)).Nodup
  boundSource : (prior.map (·.occurrenceId)).Nodup

lemma SourceOccurrence.key_of_readKey {row : SourceOccurrence} {key : Option FactKey}
    (h : row.readKey = .ok key) : row.key = key := by
  simp [SourceOccurrence.key, h, Except.toOption]

lemma LiveObservation.key_of_factKey {row : LiveObservation} {key : Option FactKey}
    (h : factKey row.facts = .ok key) : row.key = key := by
  simp [LiveObservation.key, h, Except.toOption]

lemma readSource_eq_ok (done : List SourceEntry) (row : SourceOccurrence) (e : SourceEntry) :
    readSource digest window done row = .ok e ↔
      ((SourceInWindow window row ∧ ∃ key, row.readKey = .ok key) ∧ e = row.entry digest) ∧
        ∀ a ∈ done, a.ordinal ≠ e.ordinal ∧ a.identity ≠ e.identity := by
  unfold readSource
  simp only [bind_eq_ok, refuse_eq_ok, pure_eq_ok, not_not, not_exists, not_and, not_or, exists_const]
  constructor
  · rintro ⟨hwindow, hnew, key, hkey, rfl⟩
    refine ⟨⟨⟨hwindow, key, hkey⟩, ?_⟩, hnew⟩
    rw [SourceOccurrence.entry, row.key_of_readKey hkey]
  · rintro ⟨⟨⟨hwindow, key, hkey⟩, rfl⟩, hnew⟩
    refine ⟨hwindow, hnew, key, hkey, ?_⟩
    rw [SourceOccurrence.entry, row.key_of_readKey hkey]

lemma readLive_eq_ok (done : List LiveEntry) (row : LiveObservation) (e : LiveEntry) :
    readLive digest window done row = .ok e ↔
      ((LiveInWindow window row ∧ ∃ key, factKey row.facts = .ok key) ∧ e = row.entry digest) ∧
        ∀ a ∈ done, a.identity ≠ e.identity := by
  unfold readLive
  simp only [bind_eq_ok, refuse_eq_ok, pure_eq_ok, not_not, not_exists, not_and, exists_const]
  constructor
  · rintro ⟨hwindow, hnew, key, hkey, rfl⟩
    refine ⟨⟨⟨hwindow, key, hkey⟩, ?_⟩, hnew⟩
    rw [LiveObservation.entry, row.key_of_factKey hkey]
  · rintro ⟨⟨⟨hwindow, key, hkey⟩, rfl⟩, hnew⟩
    refine ⟨hwindow, hnew, key, hkey, ?_⟩
    rw [LiveObservation.entry, row.key_of_factKey hkey]

lemma readPrior_eq_ok {sources : List SourceEntry} {lives : List LiveEntry} (done : List Binding)
    (row b : Binding) :
    readPrior sources lives done row = .ok b ↔ (PriorValid sources lives row ∧ b = row) ∧
      ∀ a ∈ done, a.observationId ≠ b.observationId ∧ a.occurrenceId ≠ b.occurrenceId := by
  unfold readPrior
  simp only [bind_eq_ok, refuse_eq_ok, pure_eq_ok, not_not, not_exists, not_and, not_or, exists_const]
  constructor
  · rintro ⟨⟨hvalid, hnew⟩, rfl⟩
    exact ⟨⟨hvalid, rfl⟩, hnew⟩
  · rintro ⟨⟨hvalid, rfl⟩, hnew⟩
    exact ⟨⟨hvalid, hnew⟩, rfl⟩

/-- `propose_matches` returns a plan on the accepted inputs, and raises on the others. -/
lemma proposeMatches_eq_ok {plan : MatchPlan} :
    proposeMatches digest window source live prior = .ok plan ↔
      Accepts digest window source live prior ∧
        plan = matchPlan window (source.map (·.entry digest)) (live.map (·.entry digest)) prior := by
  unfold proposeMatches
  simp only [bind_eq_ok, refuse_eq_ok, pure_eq_ok, not_not, exists_const, readAll_eq_ok readSource_eq_ok,
    readAll_eq_ok readLive_eq_ok, readAll_eq_ok readPrior_eq_ok, ne_eq]
  constructor
  · rintro ⟨hbounds, _, ⟨hrows, rfl, hsource⟩, hgapless, _, ⟨hobserved, rfl, hlive⟩, _, ⟨hlinks, rfl, hprior⟩, rfl⟩
    rw [List.map_id'] at hprior ⊢
    rw [List.pairwise_map] at hsource hlive
    refine ⟨⟨hbounds, hgapless, hrows, ?_, ?_, hobserved, ?_, hlinks, ?_, ?_⟩, rfl⟩ <;>
      rw [List.nodup_iff_pairwise_ne, List.pairwise_map]
    · exact hsource.imp fun h => h.1
    · exact hsource.imp fun h => h.2
    · exact hlive
    · exact hprior.imp fun h => h.1
    · exact hprior.imp fun h => h.2
  · rintro ⟨h, rfl⟩
    have hordinals := List.pairwise_map.1 (List.nodup_iff_pairwise_ne.1 h.ordinals)
    have hoccurrences := List.pairwise_map.1 (List.nodup_iff_pairwise_ne.1 h.occurrences)
    have hobservations := List.pairwise_map.1 (List.nodup_iff_pairwise_ne.1 h.observations)
    have hboundLive := List.pairwise_map.1 (List.nodup_iff_pairwise_ne.1 h.boundLive)
    have hboundSource := List.pairwise_map.1 (List.nodup_iff_pairwise_ne.1 h.boundSource)
    refine ⟨h.bounds, _, ⟨h.rows, rfl, ?_⟩, h.gapless, _, ⟨h.observed, rfl, ?_⟩, prior, ⟨h.links, ?_, ?_⟩, rfl⟩
    · rw [List.pairwise_map]
      exact hordinals.and hoccurrences
    · rw [List.pairwise_map]
      exact hobservations
    · rw [List.map_id']
    · exact hboundLive.and hboundSource

/-! ### Order -/

lemma PriorValid.mono {sources sources' : List SourceEntry} {lives lives' : List LiveEntry} {row : Binding}
    (h : PriorValid sources lives row) (hsources : sources ⊆ sources') (hlives : lives ⊆ lives') :
    PriorValid sources' lives' row := by
  obtain ⟨l, hl, hid, hkey, s, hs, hsid, hskey⟩ := h
  exact ⟨l, hlives hl, hid, hkey, s, hsources hs, hsid, hskey⟩

/-- Whether the inputs are accepted does not depend on their order. -/
lemma Accepts.perm (h : Accepts digest window source live prior) (hsource : source.Perm source')
    (hlive : live.Perm live') (hprior : prior.Perm prior') : Accepts digest window source' live' prior' where
  bounds := by simpa only [hsource.length_eq, hlive.length_eq, hprior.length_eq] using h.bounds
  gapless := hsource.length_eq ▸ h.gapless
  rows row hrow := h.rows row (hsource.mem_iff.2 hrow)
  ordinals := (hsource.map _).nodup_iff.1 h.ordinals
  occurrences := (hsource.map _).nodup_iff.1 h.occurrences
  observed row hrow := h.observed row (hlive.mem_iff.2 hrow)
  observations := (hlive.map _).nodup_iff.1 h.observations
  links row hrow := (h.links row (hprior.mem_iff.2 hrow)).mono (hsource.map _).subset (hlive.map _).subset
  boundLive := (hprior.map _).nodup_iff.1 h.boundLive
  boundSource := (hprior.map _).nodup_iff.1 h.boundSource

section Perm

variable {sources sources' : List SourceEntry} {lives lives' : List LiveEntry} {bound bound' : List Binding}

lemma available_perm (hsources : sources.Perm sources') (hbound : bound.Perm bound') (key : FactKey) :
    (available sources bound key).Perm (available sources' bound' key) := by
  simp only [available, (hbound.map _).mem_iff]
  exact (hsources.filter _).map _

lemma pending_perm (hlives : lives.Perm lives') (hbound : bound.Perm bound') (key : FactKey) :
    (pending lives bound key).Perm (pending lives' bound' key) := by
  simp only [pending, (hbound.map _).mem_iff]
  exact (hlives.filter _).map _

lemma gate_perm (hsources : sources.Perm sources') : gate window sources = gate window sources' := by
  simp only [gate, hsources.mem_iff]

lemma holdReason_perm (hsources : sources.Perm sources') (hlives : lives.Perm lives')
    (hbound : bound.Perm bound') (key : Option FactKey) :
    holdReason sources lives bound key = holdReason sources' lives' bound' key := by
  cases key with
  | none => rfl
  | some key =>
    have hlength := (available_perm hsources hbound key).length_eq
    simp only [holdReason, ← List.length_eq_zero_iff, hlength, hsources.mem_iff,
      (pending_perm hlives hbound key).length_eq]

/-- A single occurrence is the first one in every order. -/
lemma head?_perm {l l' : List String} (h : l.Perm l') (hlength : l.length = 1) : l.head? = l'.head? := by
  obtain ⟨x, rfl⟩ := List.length_eq_one_iff.1 hlength
  rw [List.singleton_perm.1 h]

lemma holdReason_eq_none {key : Option FactKey} :
    holdReason sources lives bound key = none ↔ ∃ k, key = some k ∧ (available sources bound k).length = 1 ∧
      (pending lives bound k).length ≤ 1 := by
  cases key with
  | none => simp [holdReason]
  | some k =>
    simp only [holdReason, Option.some.injEq, exists_eq_left']
    match available sources bound k with
    | [] => split_ifs <;> simp_all
    | [_] => simp
    | _ :: _ :: _ => simp

/-- The decision for an observation does not depend on the order. -/
lemma decision_perm (hnodup : (bound.map (·.observationId)).Nodup) (hsources : sources.Perm sources')
    (hlives : lives.Perm lives') (hbound : bound.Perm bound') (l : LiveEntry) :
    decision window sources lives bound l = decision window sources' lives' bound' l := by
  unfold decision
  rw [UniqueKeys.find?_perm hnodup hbound, gate_perm hsources, holdReason_perm hsources hlives hbound]
  have hcandidates : (l.key.elim [] (available sources bound)).Perm
      (l.key.elim [] (available sources' bound')) := by
    cases l.key with
    | none => exact .refl _
    | some key => exact available_perm hsources hbound key
  cases bound'.find? (·.observationId = l.identity) with
  | some b => rfl
  | none =>
    dsimp only
    cases hreason : (gate window sources').or (holdReason sources' lives' bound' l.key) with
    | some reason => simp only [hcandidates.length_eq]
    | none =>
      rw [Option.or_eq_none_iff, holdReason_eq_none] at hreason
      obtain ⟨-, key, hkey, hlength, -⟩ := hreason
      have hlength' : (l.key.elim [] (available sources bound)).length = 1 := by
        rw [hcandidates.length_eq, hkey]
        exact hlength
      simp only [head?_perm hcandidates hlength']

end Perm

/-! ### Links -/

section Links

variable {sources : List SourceEntry} {lives : List LiveEntry} {bound : List Binding} {b : Binding}
  {key : FactKey}

/-- What is decided for an observation. -/
lemma decision_cases (window : MatchWindow) (sources : List SourceEntry) (lives : List LiveEntry)
    (bound : List Binding) (l : LiveEntry) :
    (∃ b, bound.find? (·.observationId = l.identity) = some b ∧
      decision window sources lives bound l =
        ⟨l.identity, .existing, .retainedBinding, some b.occurrenceId, 0⟩) ∨
    l.identity ∉ bound.map (·.observationId) ∧
      ((∃ reason n, decision window sources lives bound l = ⟨l.identity, .held, reason, none, n⟩ ∧
        (gate window sources).or (holdReason sources lives bound l.key) ≠ none) ∨
      ∃ key occurrence, gate window sources = none ∧ l.key = some key ∧
        available sources bound key = [occurrence] ∧ (pending lives bound key).length ≤ 1 ∧
        decision window sources lives bound l =
          ⟨l.identity, .proposed, .uniqueFullFactsInClosedWindow, some occurrence, 1⟩) := by
  unfold decision
  cases hfind : bound.find? (·.observationId = l.identity) with
  | some b => exact .inl ⟨b, rfl, rfl⟩
  | none =>
    have hunbound : l.identity ∉ bound.map (·.observationId) := by
      intro hmem
      obtain ⟨b, hb, hid⟩ := List.mem_map.1 hmem
      exact List.find?_eq_none.1 hfind b hb (decide_eq_true hid)
    refine .inr ⟨hunbound, ?_⟩
    cases hreason : (gate window sources).or (holdReason sources lives bound l.key) with
    | some reason => exact .inl ⟨reason, _, rfl, by simp⟩
    | none =>
      rw [Option.or_eq_none_iff, holdReason_eq_none] at hreason
      obtain ⟨hgate, key, hkey, hlength, hpending⟩ := hreason
      obtain ⟨occurrence, hoccurrence⟩ := List.length_eq_one_iff.1 hlength
      exact .inr ⟨key, occurrence, hgate, hkey, hoccurrence, hpending, by simp [hkey, hoccurrence]⟩

lemma mem_available {id : String} :
    id ∈ available sources bound key ↔
      ∃ s ∈ sources, s.identity = id ∧ id ∉ bound.map (·.occurrenceId) ∧ s.key = some key := by
  simp only [available, List.mem_map, List.mem_filter, decide_eq_true_eq]
  constructor
  · rintro ⟨s, ⟨hs, hunbound, hkey⟩, rfl⟩
    exact ⟨s, hs, rfl, by simpa using hunbound, hkey⟩
  · rintro ⟨s, hs, rfl, hunbound, hkey⟩
    exact ⟨s, ⟨hs, by simpa using hunbound, hkey⟩, rfl⟩

lemma mem_pending {id : String} :
    id ∈ pending lives bound key ↔
      ∃ l ∈ lives, l.identity = id ∧ id ∉ bound.map (·.observationId) ∧ l.key = some key := by
  simp only [pending, List.mem_map, List.mem_filter, decide_eq_true_eq]
  constructor
  · rintro ⟨l, ⟨hl, hunbound, hkey⟩, rfl⟩
    exact ⟨l, hl, rfl, by simpa using hunbound, hkey⟩
  · rintro ⟨l, hl, rfl, hunbound, hkey⟩
    exact ⟨l, ⟨hl, by simpa using hunbound, hkey⟩, rfl⟩

/-- A link is proposed if no other occurrence and no other observation is left for its facts. -/
lemma mem_proposals :
    b ∈ linksIn .proposed (lives.map (decision window sources lives bound)) ↔ gate window sources = none ∧
      ∃ key, available sources bound key = [b.occurrenceId] ∧ pending lives bound key = [b.observationId] := by
  simp only [linksIn, List.mem_filterMap, List.mem_map, exists_exists_and_eq_and]
  constructor
  · rintro ⟨l, hl, hb⟩
    obtain ⟨b, -, hd⟩ | ⟨hunbound, ⟨reason, n, hd, -⟩ | ⟨key, occurrence, hgate, hkey, havailable, hpending, hd⟩⟩ :=
      decision_cases window sources lives bound l
    · simp [hd] at hb
    · simp [hd] at hb
    · simp only [hd, if_true, Option.map_some, Option.some.injEq] at hb
      subst hb
      have hmem : l.identity ∈ pending lives bound key := mem_pending.2 ⟨l, hl, rfl, hunbound, hkey⟩
      refine ⟨hgate, key, havailable, ?_⟩
      obtain ⟨id, hid⟩ := List.length_eq_one_iff.1 (le_antisymm hpending (List.length_pos_of_mem hmem))
      rw [hid] at hmem ⊢
      rw [List.mem_singleton.1 hmem]
  · rintro ⟨hgate, key, havailable, hpending⟩
    have hmem : b.observationId ∈ pending lives bound key := by simp [hpending]
    obtain ⟨l, hl, hid, hunbound, hkey⟩ := mem_pending.1 hmem
    refine ⟨l, hl, ?_⟩
    obtain ⟨b', hb', hd⟩ | ⟨-, ⟨reason, n, hd, hreason⟩ | ⟨key', occurrence, -, hkey', havailable', -, hd⟩⟩ :=
      decision_cases window sources lives bound l
    · refine absurd (List.mem_map.2 ⟨b', List.mem_of_find?_eq_some hb', ?_⟩) hunbound
      rw [← hid]
      simpa using List.find?_some hb'
    · refine absurd ?_ hreason
      rw [Option.or_eq_none_iff, holdReason_eq_none]
      exact ⟨hgate, key, hkey, by simp [havailable], by simp [hpending]⟩
    · obtain rfl : key = key' := by simpa [hkey] using hkey'
      obtain rfl : b.occurrenceId = occurrence := by simpa [havailable] using havailable'
      simp [hd, hid]

lemma mem_retained (hnodup : (bound.map (·.observationId)).Nodup)
    (hbound : ∀ b ∈ bound, ∃ l ∈ lives, l.identity = b.observationId) :
    b ∈ linksIn .existing (lives.map (decision window sources lives bound)) ↔ b ∈ bound := by
  simp only [linksIn, List.mem_filterMap, List.mem_map, exists_exists_and_eq_and]
  constructor
  · rintro ⟨l, hl, hb⟩
    obtain ⟨b', hb', hd⟩ | ⟨-, ⟨reason, n, hd, -⟩ | ⟨key, occurrence, -, -, -, -, hd⟩⟩ :=
      decision_cases window sources lives bound l
    · obtain ⟨hmem, hid⟩ := (UniqueKeys.find?_eq_some hnodup).1 hb'
      simp only [hd, if_true, Option.map_some, Option.some.injEq] at hb
      rw [← hb, ← hid]
      exact hmem
    · simp [hd] at hb
    · simp [hd] at hb
  · intro hb
    obtain ⟨l, hl, hid⟩ := hbound b hb
    have hfind : bound.find? (·.observationId = l.identity) = some b :=
      (UniqueKeys.find?_eq_some hnodup).2 ⟨hb, hid.symm⟩
    have hd : decision window sources lives bound l =
        ⟨l.identity, .existing, .retainedBinding, some b.occurrenceId, 0⟩ := by
      simp only [decision, hfind]
    exact ⟨l, hl, by simp [hd, hid]⟩

/-- An observation has at most one link in a list that is made from the decisions. -/
lemma map_filterMap_sublist {f : MatchDecision → Option Binding} (decisions : List MatchDecision)
    (hf : ∀ d b, f d = some b → b.observationId = d.observationId) :
    ((decisions.filterMap f).map (·.observationId)).Sublist (decisions.map (·.observationId)) := by
  induction decisions with
  | nil => exact .slnil
  | cons d decisions ih =>
    cases hd : f d with
    | none =>
      rw [List.filterMap_cons_none hd]
      exact ih.cons _
    | some b =>
      rw [List.filterMap_cons_some hd, List.map_cons, List.map_cons, hf d b hd]
      exact ih.cons_cons _

lemma occurrenceId_eq_none (l : LiveEntry) :
    (decision window sources lives bound l).occurrenceId = none ↔
      (decision window sources lives bound l).state = .held := by
  obtain ⟨b, -, hd⟩ | ⟨-, ⟨reason, n, hd, -⟩ | ⟨key, occurrence, -, -, -, -, hd⟩⟩ :=
    decision_cases window sources lives bound l <;> simp [hd]

/-- A proposed decision is for a link. -/
lemma state_ne_proposed (h : linksIn .proposed (lives.map (decision window sources lives bound)) = [])
    {l : LiveEntry} (hl : l ∈ lives) : (decision window sources lives bound l).state ≠ .proposed := by
  intro hstate
  rw [linksIn, List.filterMap_eq_nil_iff] at h
  have hnone := h _ (List.mem_map_of_mem hl)
  rw [if_pos hstate, Option.map_eq_none_iff, occurrenceId_eq_none, hstate] at hnone
  cases hnone

lemma map_decision_observationId :
    (lives.map (decision window sources lives bound)).map (·.observationId) = lives.map (·.identity) := by
  rw [List.map_map]
  refine List.map_congr_left fun l _ => ?_
  obtain ⟨b, -, hd⟩ | ⟨-, ⟨reason, n, hd, -⟩ | ⟨key, occurrence, -, -, -, -, hd⟩⟩ :=
    decision_cases window sources lives bound l <;> simp [hd]

lemma nodup_linksIn (hl : (lives.map (·.identity)).Nodup) (state : MatchState) :
    ((linksIn state (lives.map (decision window sources lives bound))).map (·.observationId)).Nodup := by
  refine (map_decision_observationId ▸ hl).sublist (map_filterMap_sublist _ fun d b hb => ?_)
  split_ifs at hb
  obtain ⟨occurrence, -, rfl⟩ := Option.map_eq_some_iff.1 hb
  rfl

/-- An occurrence has one key. -/
lemma key_unique (hs : (sources.map (·.identity)).Nodup) {id : String} {key' : FactKey}
    (h : id ∈ available sources bound key) (h' : id ∈ available sources bound key') : key = key' := by
  obtain ⟨s, hmem, hid, -, hkey⟩ := mem_available.1 h
  obtain ⟨s', hmem', hid', -, hkey'⟩ := mem_available.1 h'
  rw [List.inj_on_of_nodup_map hs hmem hmem' (hid.trans hid'.symm), hkey'] at hkey
  exact (Option.some.inj hkey).symm

/-- An observation has one key. -/
lemma key_unique_live (hl : (lives.map (·.identity)).Nodup) {id : String} {key' : FactKey}
    (h : id ∈ pending lives bound key) (h' : id ∈ pending lives bound key') : key = key' := by
  obtain ⟨l, hmem, hid, -, hkey⟩ := mem_pending.1 h
  obtain ⟨l', hmem', hid', -, hkey'⟩ := mem_pending.1 h'
  rw [List.inj_on_of_nodup_map hl hmem hmem' (hid.trans hid'.symm), hkey'] at hkey
  exact (Option.some.inj hkey).symm

/-- No two proposals are for one occurrence. -/
lemma nodup_proposed (hs : (sources.map (·.identity)).Nodup) (hl : (lives.map (·.identity)).Nodup) :
    ((linksIn .proposed (lives.map (decision window sources lives bound))).map (·.occurrenceId)).Nodup := by
  refine (nodup_linksIn hl .proposed).of_map.map_on ?_
  intro b hb b' hb' hid
  obtain ⟨-, key, havailable, hpending⟩ := mem_proposals.1 hb
  obtain ⟨-, key', havailable', hpending'⟩ := mem_proposals.1 hb'
  have hmem : b.occurrenceId ∈ available sources bound key := by simp [havailable]
  have hmem' : b.occurrenceId ∈ available sources bound key' := by simp [havailable', hid]
  rw [key_unique hs hmem hmem', hpending', List.singleton_inj] at hpending
  obtain ⟨observation, occurrence⟩ := b
  obtain ⟨observation', occurrence'⟩ := b'
  simp_all

/-- The links that were kept are those from before. -/
lemma retained_perm (hl : (lives.map (·.identity)).Nodup) (hnodup : (bound.map (·.observationId)).Nodup)
    (hbound : ∀ b ∈ bound, ∃ l ∈ lives, l.identity = b.observationId) :
    (linksIn .existing (lives.map (decision window sources lives bound))).Perm bound := by
  rw [List.perm_ext_iff_of_nodup (nodup_linksIn hl .existing).of_map hnodup.of_map]
  exact fun b => mem_retained hnodup hbound

/-- A proposal is not for an occurrence or an observation with a link. -/
lemma unbound_of_proposed (h : b ∈ linksIn .proposed (lives.map (decision window sources lives bound))) :
    b.occurrenceId ∉ bound.map (·.occurrenceId) ∧ b.observationId ∉ bound.map (·.observationId) := by
  obtain ⟨-, key, havailable, hpending⟩ := mem_proposals.1 h
  have hoccurrence : b.occurrenceId ∈ available sources bound key := by simp [havailable]
  have hobservation : b.observationId ∈ pending lives bound key := by simp [hpending]
  obtain ⟨-, -, -, hsource, -⟩ := mem_available.1 hoccurrence
  obtain ⟨-, -, -, hlive, -⟩ := mem_pending.1 hobservation
  exact ⟨hsource, hlive⟩

/-- A proposal links rows with the same facts. -/
lemma priorValid_of_proposed (h : b ∈ linksIn .proposed (lives.map (decision window sources lives bound))) :
    PriorValid sources lives b := by
  obtain ⟨-, key, havailable, hpending⟩ := mem_proposals.1 h
  have hoccurrence : b.occurrenceId ∈ available sources bound key := by simp [havailable]
  have hobservation : b.observationId ∈ pending lives bound key := by simp [hpending]
  obtain ⟨s, hs, hsid, -, hskey⟩ := mem_available.1 hoccurrence
  obtain ⟨l, hl, hlid, -, hlkey⟩ := mem_pending.1 hobservation
  exact ⟨l, hl, hlid, by simp [hlkey], s, hs, hsid, by rw [hskey, hlkey]⟩

/-- New links on other facts leave the candidates of a key. -/
lemma available_append {links : List Binding}
    (h : ∀ b ∈ links, b.occurrenceId ∉ available sources bound key) :
    available sources (bound ++ links) key = available sources bound key := by
  rw [available, available]
  congr 1
  refine List.filter_congr fun s hs => ?_
  rw [decide_eq_decide, List.map_append, List.mem_append, not_or, and_assoc, and_congr_right_iff,
    and_iff_right_iff_imp]
  intro hunbound hkey hmem
  obtain ⟨b, hb, hid⟩ := List.mem_map.1 hmem
  exact h b hb (mem_available.2 ⟨s, hs, hid.symm, hid ▸ hunbound, hkey⟩)

lemma pending_append {links : List Binding} (h : ∀ b ∈ links, b.observationId ∉ pending lives bound key) :
    pending lives (bound ++ links) key = pending lives bound key := by
  rw [pending, pending]
  congr 1
  refine List.filter_congr fun l hl => ?_
  rw [decide_eq_decide, List.map_append, List.mem_append, not_or, and_assoc, and_congr_right_iff,
    and_iff_right_iff_imp]
  intro hunbound hkey hmem
  obtain ⟨b, hb, hid⟩ := List.mem_map.1 hmem
  exact h b hb (mem_pending.2 ⟨l, hl, hid.symm, hid ▸ hunbound, hkey⟩)

/-- Once the proposals are links, nothing more is proposed. -/
lemma proposals_settle (hs : (sources.map (·.identity)).Nodup) (hl : (lives.map (·.identity)).Nodup) :
    linksIn .proposed (lives.map (decision window sources lives
      (bound ++ linksIn .proposed (lives.map (decision window sources lives bound))))) = [] := by
  rw [List.eq_nil_iff_forall_not_mem]
  intro b hb
  generalize hlinks : linksIn .proposed (lives.map (decision window sources lives bound)) = links at hb
  obtain ⟨hgate, key, havailable, hpending⟩ := mem_proposals.1 hb
  have hoccurrence : b.occurrenceId ∈ available sources (bound ++ links) key := by simp [havailable]
  obtain ⟨s, hsmem, hid, hunbound, hkey⟩ := mem_available.1 hoccurrence
  simp only [List.map_append, List.mem_append, not_or] at hunbound
  have hcandidate : b.occurrenceId ∈ available sources bound key :=
    mem_available.2 ⟨s, hsmem, hid, hunbound.1, hkey⟩
  -- A proposal for these facts would have taken the candidate.
  have hother : ∀ b' ∈ links, b'.occurrenceId ∉ available sources bound key ∧
      b'.observationId ∉ pending lives bound key := by
    intro b' hb'
    obtain ⟨-, key', havailable', hpending'⟩ := mem_proposals.1 (hlinks ▸ hb')
    have hne : key ≠ key' := by
      rintro rfl
      rw [havailable', List.mem_singleton] at hcandidate
      exact hunbound.2 (List.mem_map.2 ⟨b', hb', hcandidate.symm⟩)
    refine ⟨fun hmem => hne (key_unique hs hmem ?_), fun hmem => hne (key_unique_live hl hmem ?_)⟩
    · simp [havailable']
    · simp [hpending']
  rw [available_append fun b' hb' => (hother b' hb').1] at havailable
  rw [pending_append fun b' hb' => (hother b' hb').2] at hpending
  have hmem : b ∈ links := hlinks ▸ mem_proposals.2 ⟨hgate, key, havailable, hpending⟩
  exact hunbound.2 (List.mem_map_of_mem hmem)

end Links

/-! ### Plans -/

/-- The plan for rows that were accepted. -/
abbrev planOf (digest : Json → String) (window : MatchWindow) (source : List SourceOccurrence)
    (live : List LiveObservation) (prior : List Binding) : MatchPlan :=
  matchPlan window (source.map (·.entry digest)) (live.map (·.entry digest)) prior

lemma gate_eq_none {sources : List SourceEntry} :
    gate window sources = none ↔ window.profileQualified = true ∧ window.sourceComplete = true ∧
      window.liveComplete = true ∧ ∀ s ∈ sources, s.key ≠ none := by
  unfold gate
  split_ifs <;> simp_all

lemma available_entries {key : FactKey} :
    available (source.map (·.entry digest)) prior key =
      (source.filter fun row => row.identity digest ∉ prior.map (·.occurrenceId) ∧ row.key = some key).map
        (·.identity digest) := by
  rw [available, List.filter_map, List.map_map]
  rfl

lemma pending_entries {key : FactKey} :
    pending (live.map (·.entry digest)) prior key =
      (live.filter fun row => row.identity digest ∉ prior.map (·.observationId) ∧ row.key = some key).map
        (·.identity digest) := by
  rw [pending, List.filter_map, List.map_map]
  rfl

/-- The row is the only one that is not bound and has the key. -/
def OnlySource (digest : Json → String) (source : List SourceOccurrence) (prior : List Binding) (key : FactKey)
    (s : SourceOccurrence) : Prop :=
  ∀ row, row ∈ source ∧ row.identity digest ∉ prior.map (·.occurrenceId) ∧ row.key = some key ↔ row = s

/-- The observation is the only one that is not bound and has the key. -/
def OnlyLive (digest : Json → String) (live : List LiveObservation) (prior : List Binding) (key : FactKey)
    (l : LiveObservation) : Prop :=
  ∀ row, row ∈ live ∧ row.identity digest ∉ prior.map (·.observationId) ∧ row.key = some key ↔ row = l

namespace Accepts

variable (h : Accepts digest window source live prior)

include h

lemma nodup_sources : ((source.map (·.entry digest)).map (·.identity)).Nodup := by
  rw [List.map_map]
  exact h.occurrences

lemma nodup_lives : ((live.map (·.entry digest)).map (·.identity)).Nodup := by
  rw [List.map_map]
  exact h.observations

lemma exists_live (b : Binding) (hb : b ∈ prior) :
    ∃ l ∈ live.map (·.entry digest), l.identity = b.observationId := by
  obtain ⟨l, hl, hid, -⟩ := h.links b hb
  exact ⟨l, hl, hid⟩

/-- A proposal is for the only rows with their facts. -/
lemma mem_proposed {b : Binding} :
    b ∈ linksIn .proposed (planOf digest window source live prior).decisions ↔
      (window.profileQualified = true ∧ window.sourceComplete = true ∧ window.liveComplete = true ∧
        ∀ row ∈ source, row.key ≠ none) ∧
      ∃ key s l, s.identity digest = b.occurrenceId ∧ l.identity digest = b.observationId ∧
        OnlySource digest source prior key s ∧ OnlyLive digest live prior key l := by
  refine mem_proposals.trans (and_congr ?_ (exists_congr fun key => ?_))
  · rw [gate_eq_none]
    simp [SourceOccurrence.entry]
  · rw [available_entries, pending_entries, UniqueKeys.map_filter_eq_singleton h.occurrences,
      UniqueKeys.map_filter_eq_singleton h.observations]
    simp only [decide_eq_true_eq, OnlySource, OnlyLive]
    constructor
    · rintro ⟨⟨s, hs, hsource⟩, l, hl, hlive⟩
      exact ⟨s, l, hs, hl, hsource, hlive⟩
    · rintro ⟨s, l, hs, hl, hsource, hlive⟩
      exact ⟨⟨s, hs, hsource⟩, l, hl, hlive⟩

lemma retained_perm_prior : (linksIn .existing (planOf digest window source live prior).decisions).Perm prior :=
  retained_perm h.nodup_lives h.boundLive h.exists_live

/-- The links of a plan, old and new, are one to one. -/
lemma nodup_links :
    ((prior ++ linksIn .proposed (planOf digest window source live prior).decisions).map
        (·.observationId)).Nodup ∧
      ((prior ++ linksIn .proposed (planOf digest window source live prior).decisions).map
        (·.occurrenceId)).Nodup := by
  rw [List.map_append, List.map_append, List.nodup_append', List.nodup_append']
  refine ⟨⟨h.boundLive, nodup_linksIn h.nodup_lives .proposed, ?_⟩,
    ⟨h.boundSource, nodup_proposed h.nodup_sources h.nodup_lives, ?_⟩⟩
  · intro id hid hid'
    obtain ⟨b, hb, rfl⟩ := List.mem_map.1 hid'
    exact (unbound_of_proposed hb).2 hid
  · intro id hid hid'
    obtain ⟨b, hb, rfl⟩ := List.mem_map.1 hid'
    exact (unbound_of_proposed hb).1 hid

/-- The links of a plan are between rows of the window. -/
lemma priorValid_links (b : Binding)
    (hb : b ∈ prior ++ linksIn .proposed (planOf digest window source live prior).decisions) :
    PriorValid (source.map (·.entry digest)) (live.map (·.entry digest)) b := by
  rcases List.mem_append.1 hb with hb | hb
  · exact h.links b hb
  · exact priorValid_of_proposed hb

/-- There are at most as many links as observations. -/
lemma length_links_le :
    (prior ++ linksIn .proposed (planOf digest window source live prior).decisions).length ≤ live.length := by
  have hsub : (prior ++ linksIn .proposed (planOf digest window source live prior).decisions).map
      (·.observationId) ⊆ live.map (·.identity digest) := by
    intro id hid
    obtain ⟨b, hb, rfl⟩ := List.mem_map.1 hid
    obtain ⟨l, hl, hlid, -⟩ := h.priorValid_links b hb
    obtain ⟨row, hrow, rfl⟩ := List.mem_map.1 hl
    exact List.mem_map.2 ⟨row, hrow, hlid⟩
  simpa using (List.subperm_of_subset h.nodup_links.1 hsub).length_le

/-- The proposals are accepted as links. -/
lemma append_proposed :
    Accepts digest window source live
      (prior ++ linksIn .proposed (planOf digest window source live prior).decisions) where
  bounds := by
    obtain ⟨hserial, hepoch, horder, hend, hsize, hsource, hlive, -, hrest⟩ := h.bounds
    exact ⟨hserial, hepoch, horder, hend, hsize, hsource, hlive, h.length_links_le.trans hlive, hrest⟩
  gapless := h.gapless
  rows := h.rows
  ordinals := h.ordinals
  occurrences := h.occurrences
  observed := h.observed
  observations := h.observations
  links := h.priorValid_links
  boundLive := h.nodup_links.1
  boundSource := h.nodup_links.2

/-- Every occurrence has a link, or is proposed for one, or is left unbound. -/
lemma unbound_perm :
    ((planOf digest window source live prior).unboundOccurrences ++
      (prior ++ linksIn .proposed (planOf digest window source live prior).decisions).map
        (·.occurrenceId)).Perm (source.map (·.identity digest)) := by
  have hids : (source.map (·.entry digest)).map (·.identity) = source.map (·.identity digest) := by
    rw [List.map_map]
    rfl
  have hunbound (id : String) : id ∈ (planOf digest window source live prior).unboundOccurrences ↔
      id ∈ source.map (·.identity digest) ∧
        id ∉ (prior ++ linksIn .proposed (planOf digest window source live prior).decisions).map
          (·.occurrenceId) := by
    rw [List.map_append, List.mem_append, not_or, ← hids]
    simp only [matchPlan, List.mem_filter, decide_eq_true_eq]
  rw [List.perm_ext_iff_of_nodup ?_ h.occurrences]
  · intro id
    rw [List.mem_append, hunbound]
    refine ⟨?_, fun hid => ?_⟩
    · rintro (⟨hid, -⟩ | hid)
      · exact hid
      · obtain ⟨b, hb, rfl⟩ := List.mem_map.1 hid
        obtain ⟨-, -, -, -, s, hs, hsid, -⟩ := h.priorValid_links b hb
        rw [← hids]
        exact List.mem_map.2 ⟨s, hs, hsid⟩
    · by_cases hlink : id ∈ (prior ++ linksIn .proposed
          (planOf digest window source live prior).decisions).map (·.occurrenceId)
      · exact .inr hlink
      · exact .inl ⟨hid, hlink⟩
  · rw [List.nodup_append']
    refine ⟨?_, h.nodup_links.2, fun id hid hlink => ((hunbound id).1 hid).2 hlink⟩
    refine List.Nodup.filter _ ?_
    rw [hids]
    exact h.occurrences

/-- The order of the inputs only orders the plan. -/
lemma plan_perm (hsource : source.Perm source') (hlive : live.Perm live') (hprior : prior.Perm prior') :
    (planOf digest window source live prior).decisions.Perm
        (planOf digest window source' live' prior').decisions ∧
      (planOf digest window source live prior).unboundOccurrences.Perm
        (planOf digest window source' live' prior').unboundOccurrences := by
  have hsources := hsource.map (SourceOccurrence.entry digest)
  have hlives := hlive.map (LiveObservation.entry digest)
  have hdecisions : (planOf digest window source live prior).decisions.Perm
      (planOf digest window source' live' prior').decisions := by
    have hsame : decision window (source.map (·.entry digest)) (live.map (·.entry digest)) prior =
        decision window (source'.map (·.entry digest)) (live'.map (·.entry digest)) prior' :=
      funext (decision_perm h.boundLive hsources hlives hprior)
    simp only [matchPlan, hsame]
    exact hlives.map _
  have hproposed : (linksIn .proposed (planOf digest window source live prior).decisions).Perm
      (linksIn .proposed (planOf digest window source' live' prior').decisions) := hdecisions.filterMap _
  have hlinks := (hprior.append hproposed).map (·.occurrenceId)
  refine ⟨hdecisions, ?_⟩
  have hall := ((h.unbound_perm.trans (hsource.map _)).trans
    (h.perm hsource hlive hprior).unbound_perm.symm).trans (hlinks.symm.append_left _)
  exact (List.perm_append_right_iff _).1 hall

end Accepts

/-- Matching is a sound partial matching that does not depend on the order of the inputs. -/
theorem propose_matches_sound (digest : Json → String) (window : MatchWindow) (source : List SourceOccurrence)
    (live : List LiveObservation) (prior : List Binding) :
    (∀ source' live' prior', source.Perm source' → live.Perm live' → prior.Perm prior' →
      ((∃ plan, proposeMatches digest window source live prior = .ok plan) ↔
        ∃ plan, proposeMatches digest window source' live' prior' = .ok plan)) ∧
    ∀ plan, proposeMatches digest window source live prior = .ok plan →
      -- One decision for each observation, with an occurrence unless it is held.
      (plan.decisions.map (·.observationId) = live.map (·.identity digest) ∧
        (live.map (·.identity digest)).Nodup ∧
        ∀ d ∈ plan.decisions, d.occurrenceId = none ↔ d.state = .held) ∧
      -- The links are one to one.
      (((linksIn .existing plan.decisions ++ linksIn .proposed plan.decisions).map (·.observationId)).Nodup ∧
        ((linksIn .existing plan.decisions ++ linksIn .proposed plan.decisions).map (·.occurrenceId)).Nodup) ∧
      -- A proposal is for the only rows with their facts.
      (∀ b, b ∈ linksIn .proposed plan.decisions ↔
        (window.profileQualified = true ∧ window.sourceComplete = true ∧ window.liveComplete = true ∧
          ∀ row ∈ source, row.key ≠ none) ∧
        ∃ key s l, s.identity digest = b.occurrenceId ∧ l.identity digest = b.observationId ∧
          OnlySource digest source prior key s ∧ OnlyLive digest live prior key l) ∧
      -- Every occurrence is accounted for once.
      (plan.unboundOccurrences ++ (linksIn .existing plan.decisions).map (·.occurrenceId) ++
        (linksIn .proposed plan.decisions).map (·.occurrenceId)).Perm (source.map (·.identity digest)) ∧
      -- The order of the inputs only orders the plan.
      (∀ source' live' prior', source.Perm source' → live.Perm live' → prior.Perm prior' →
        ∃ plan', proposeMatches digest window source' live' prior' = .ok plan' ∧
          plan.decisions.Perm plan'.decisions ∧ plan.unboundOccurrences.Perm plan'.unboundOccurrences) ∧
      -- The proposals settle the plan.
      ∃ plan', proposeMatches digest window source live (prior ++ linksIn .proposed plan.decisions) = .ok plan' ∧
        ∀ d ∈ plan'.decisions, d.state ≠ .proposed := by
  constructor
  · intro source' live' prior' hsource hlive hprior
    simp only [proposeMatches_eq_ok, exists_eq_right]
    exact ⟨fun h => h.perm hsource hlive hprior, fun h => h.perm hsource.symm hlive.symm hprior.symm⟩
  · intro plan hplan
    obtain ⟨h, rfl⟩ := proposeMatches_eq_ok.1 hplan
    have hretained := h.retained_perm_prior
    have hlinks := hretained.append_right (linksIn .proposed (planOf digest window source live prior).decisions)
    refine ⟨⟨?_, h.observations, ?_⟩, ⟨?_, ?_⟩, fun b => h.mem_proposed, ?_, ?_, ?_⟩
    · refine map_decision_observationId.trans ?_
      rw [List.map_map]
      rfl
    · intro d hd
      obtain ⟨l, -, rfl⟩ := List.mem_map.1 hd
      exact occurrenceId_eq_none l
    · exact (hlinks.map _).nodup_iff.2 h.nodup_links.1
    · exact (hlinks.map _).nodup_iff.2 h.nodup_links.2
    · rw [List.append_assoc, ← List.map_append]
      exact ((hlinks.map _).append_left _).trans h.unbound_perm
    · intro source' live' prior' hsource hlive hprior
      exact ⟨_, proposeMatches_eq_ok.2 ⟨h.perm hsource hlive hprior, rfl⟩, h.plan_perm hsource hlive hprior⟩
    · refine ⟨_, proposeMatches_eq_ok.2 ⟨h.append_proposed, rfl⟩, ?_⟩
      intro d hd
      obtain ⟨l, hl, rfl⟩ := List.mem_map.1 hd
      exact state_ne_proposed (proposals_settle h.nodup_sources h.nodup_lives) hl

end Zkt
