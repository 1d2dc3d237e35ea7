import Mathlib.Data.Finset.Card
import AutoAttn.Probing

/-!
# The cache of event UIDs

`uid_cache.c` remembers which events were accepted, by the 32 bytes that their UID stands for. A search looks at 32
slots at most, so the cache may refuse to take a key, but it never forgets one that it took.
-/

namespace UidCache

/-! ### Keys -/

/-- The 32 bytes of a UID. -/
abbrev Key := List UInt8

/-- A C string, or no string. -/
abbrev Uid := Option (List UInt8)

/-- `hex` -/
def hex (c : UInt8) : Option UInt8 :=
  if 0x30 ≤ c ∧ c ≤ 0x39 then some (c - 0x30)
  else if 0x61 ≤ c ∧ c ≤ 0x66 then some (c - 0x61 + 10)
  else if 0x41 ≤ c ∧ c ≤ 0x46 then some (c - 0x41 + 10)
  else none

/-- The loop of `decode`. -/
def decodePairs : List UInt8 → Option Key
  | hi :: lo :: rest =>
    match hex hi, hex lo with
    | some hi, some lo => (decodePairs rest).map (((hi <<< 4) ||| lo) :: ·)
    | _, _             => none
  | _                => some []

/-- `decode` -/
def decode (uid : Uid) : Option Key := (uid.filter (·.length = 64)).bind decodePairs

/-- `bucket`: FNV-1a, modulo the capacity. -/
def bucket (key : Key) (capacity : Nat) : Nat :=
  (key.foldl (fun (hash : UInt32) b => (hash ^^^ b.toUInt32) * 16777619) 2166136261).toNat % capacity

/-! ### The cache -/

/-- `uid_cache_t`. A slot that is not occupied holds no key. -/
structure Cache where
  slots : List (Option Key)
  count : Nat

/-- A zeroed cache. -/
def zeroed (capacity : Nat) : Cache := ⟨List.replicate capacity none, 0⟩

def Cache.capacity (cache : Cache) : Nat := cache.slots.length

/-- The loop of `uid_cache_contains`, with the turns that are left. -/
def containsLoop (cache : Cache) (key : Key) : Nat → Nat → Bool
  | 0, _            => false
  | turns + 1, slot =>
    match cache.slots[slot]?.join with
    | none   => false
    | some k => if k = key then true else containsLoop cache key turns ((slot + 1) % cache.capacity)

/-- `uid_cache_contains` -/
def contains (cache : Cache) (uid : Uid) : Bool :=
  if cache.capacity = 0 then false
  else match decode uid with
    | none     => false
    | some key => containsLoop cache key (min cache.capacity 32) (bucket key cache.capacity)

/-- The loop of `uid_cache_add`. -/
def addLoop (cache : Cache) (key : Key) : Nat → Nat → Cache × Bool
  | 0, _            => (cache, false)
  | turns + 1, slot =>
    match cache.slots[slot]?.join with
    | none   => (⟨cache.slots.set slot (some key), cache.count + 1⟩, true)
    | some k => if k = key then (cache, true) else addLoop cache key turns ((slot + 1) % cache.capacity)

/-- `uid_cache_add` -/
def add (cache : Cache) (uid : Uid) : Cache × Bool :=
  if cache.capacity = 0 then (cache, false)
  else match decode uid with
    | none     => (cache, false)
    | some key => addLoop cache key (min cache.capacity 32) (bucket key cache.capacity)

/-! ### Calls -/

inductive Call where
  | add (uid : Uid)
  | contains (uid : Uid)

def step (cache : Cache) : Call → Cache × Bool
  | .add uid      => add cache uid
  | .contains uid => (cache, contains cache uid)

/-- Calls one after the other, each with what it returned. -/
def run (cache : Cache) : List Call → Cache × List (Call × Bool)
  | []            => (cache, [])
  | call :: calls =>
    let (next, result) := step cache call
    let (last, results) := run next calls
    (last, (call, result) :: results)

/-- The keys of the adds that returned true. -/
def added (results : List (Call × Bool)) : List Key :=
  results.filterMap fun
    | (.add uid, true) => decode uid
    | _                => none

/-! ### Paths -/

/-- The slots that a search looks at. -/
def probePath (capacity : Nat) : Nat → Nat → List Nat
  | 0, _            => []
  | turns + 1, slot => slot :: probePath capacity turns ((slot + 1) % capacity)

/-- The slots that a search for a key looks at. -/
def path (capacity : Nat) (key : Key) : List Nat := probePath capacity (min capacity 32) (bucket key capacity)

lemma lt_of_mem_path {capacity : Nat} (hcapacity : capacity ≠ 0) {key : Key} {slot : Nat}
    (h : slot ∈ path capacity key) : slot < capacity := by
  have hpos : 0 < capacity := Nat.pos_of_ne_zero hcapacity
  suffices H : ∀ turns start, start < capacity → ∀ slot ∈ probePath capacity turns start, slot < capacity from
    H _ _ (Nat.mod_lt _ hpos) slot h
  intro turns
  induction turns with
  | zero => simp [probePath]
  | succ turns ih =>
    intro start hstart slot hslot
    rcases List.mem_cons.mp hslot with rfl | hslot
    · exact hstart
    · exact ih _ (Nat.mod_lt _ hpos) slot hslot

lemma containsLoop_eq (cache : Cache) (key : Key) (turns slot : Nat) :
    containsLoop cache key turns slot = true ↔
      Probing.search cache.slots key (probePath cache.capacity turns slot) = .present := by
  induction turns generalizing slot with
  | zero => simp [containsLoop, probePath, Probing.search]
  | succ turns ih =>
    rw [containsLoop, probePath, Probing.search]
    cases cache.slots[slot]?.join with
    | none => simp
    | some k =>
      dsimp only
      split_ifs
      · simp
      · exact ih _

lemma addLoop_eq (cache : Cache) (key : Key) (turns slot : Nat) :
    addLoop cache key turns slot =
      match Probing.search cache.slots key (probePath cache.capacity turns slot) with
      | .present   => (cache, true)
      | .vacant i  => (⟨cache.slots.set i (some key), cache.count + 1⟩, true)
      | .exhausted => (cache, false) := by
  induction turns generalizing slot with
  | zero => rfl
  | succ turns ih =>
    rw [addLoop, probePath, Probing.search]
    cases cache.slots[slot]?.join with
    | none => rfl
    | some k =>
      dsimp only
      split_ifs
      · rfl
      · exact ih _

lemma contains_eq_true {cache : Cache} {uid : Uid} : contains cache uid = true ↔
    cache.capacity ≠ 0 ∧ ∃ key, decode uid = some key ∧
      Probing.search cache.slots key (path cache.capacity key) = .present := by
  rw [contains]
  split_ifs with hcapacity
  · simp [hcapacity]
  · cases decode uid with
    | none => simp
    | some key => simp [hcapacity, containsLoop_eq, path]

/-- What an add does: nothing, or it stores the key at the vacant slot of its path. -/
lemma add_cases (cache : Cache) (uid : Uid) :
    add cache uid = (cache, false) ∨
    (∃ key, decode uid = some key ∧ cache.capacity ≠ 0 ∧ add cache uid = (cache, true) ∧
      Probing.search cache.slots key (path cache.capacity key) = .present) ∨
    ∃ key slot, decode uid = some key ∧ cache.capacity ≠ 0 ∧
      Probing.search cache.slots key (path cache.capacity key) = .vacant slot ∧
      add cache uid = (⟨cache.slots.set slot (some key), cache.count + 1⟩, true) := by
  rw [add]
  split_ifs with hcapacity
  · exact .inl rfl
  · cases hdecode : decode uid with
    | none => exact .inl rfl
    | some key =>
      dsimp only
      rw [addLoop_eq]
      cases hsearch : Probing.search cache.slots key (path cache.capacity key) with
      | present => exact .inr (.inl ⟨key, rfl, hcapacity, by rw [← path, hsearch], hsearch⟩)
      | vacant slot => exact .inr (.inr ⟨key, slot, rfl, hcapacity, hsearch, by rw [← path, hsearch]⟩)
      | exhausted => exact .inl (by rw [← path, hsearch])

/-! ### Runs -/

/-- Every key that is stored is found, none is stored twice, and they are those of the adds that returned true. -/
structure Sound (cache : Cache) (results : List (Call × Bool)) : Prop where
  found : ∀ key ∈ Probing.keys cache.slots,
    Probing.search cache.slots key (path cache.capacity key) = .present
  nodup : (Probing.keys cache.slots).Nodup
  count : cache.count = (Probing.keys cache.slots).length
  mem : ∀ key, key ∈ Probing.keys cache.slots ↔ key ∈ added results

lemma sound_zeroed (capacity : Nat) : Sound (zeroed capacity) [] := by
  have hkeys : Probing.keys (zeroed capacity).slots = [] := by
    simp [Probing.keys, zeroed]
  refine ⟨?_, ?_, ?_, ?_⟩
  · simp [hkeys]
  · simp [hkeys]
  · rw [hkeys]
    rfl
  · simp [hkeys, added]

lemma added_append (results results' : List (Call × Bool)) : added (results ++ results') = added results ++ added results' :=
  List.filterMap_append

/-- A call that adds no key of its own. -/
lemma Sound.same {cache : Cache} {results : List (Call × Bool)} (h : Sound cache results) {result : Call × Bool}
    (hadded : ∀ key ∈ added [result], key ∈ added results) : Sound cache (results ++ [result]) where
  found := h.found
  nodup := h.nodup
  count := h.count
  mem key := by
    rw [h.mem, added_append, List.mem_append]
    exact ⟨.inl, Or.rec id (hadded key)⟩

/-- A key that is stored at the vacant slot of its path. -/
lemma Sound.store {cache : Cache} {results : List (Call × Bool)} (h : Sound cache results) {uid : Uid} {key : Key}
    {slot : Nat} (hdecode : decode uid = some key) (hcapacity : cache.capacity ≠ 0)
    (hsearch : Probing.search cache.slots key (path cache.capacity key) = .vacant slot) :
    Sound ⟨cache.slots.set slot (some key), cache.count + 1⟩ (results ++ [(.add uid, true)]) := by
  have hvacant := Probing.join_of_vacant hsearch
  have hslot : slot < cache.slots.length := lt_of_mem_path hcapacity (Probing.mem_of_vacant hsearch)
  have hkeys : (Probing.keys (cache.slots.set slot (some key))).Perm (key :: Probing.keys cache.slots) :=
    Probing.keys_set hslot hvacant
  have hsame : (⟨cache.slots.set slot (some key), cache.count + 1⟩ : Cache).capacity = cache.capacity :=
    List.length_set
  have hnew : key ∉ Probing.keys cache.slots := by
    intro hmem
    rw [h.found key hmem] at hsearch
    cases hsearch
  refine ⟨?_, ?_, ?_, ?_⟩
  · intro other hother
    rw [hsame]
    rcases List.mem_cons.mp (hkeys.mem_iff.mp hother) with rfl | hother
    · exact Probing.search_set_self hslot hsearch
    · exact Probing.search_set_of_present hvacant (h.found other hother)
  · exact hkeys.nodup_iff.mpr (List.nodup_cons.mpr ⟨hnew, h.nodup⟩)
  · rw [hkeys.length_eq, List.length_cons, h.count]
  · intro other
    rw [hkeys.mem_iff, List.mem_cons, h.mem, added_append, List.mem_append, or_comm]
    simp [added, hdecode]

lemma Sound.step {cache : Cache} {results : List (Call × Bool)} (h : Sound cache results) (call : Call) :
    Sound (step cache call).1 (results ++ [(call, (step cache call).2)]) := by
  cases call with
  | contains uid => exact h.same (by simp [added])
  | add uid =>
    rcases add_cases cache uid with hadd | ⟨key, hdecode, _, hadd, hsearch⟩ | ⟨key, slot, hdecode, hcapacity, hsearch,
      hadd⟩
    · rw [UidCache.step, hadd]
      exact h.same (by simp [added])
    · rw [UidCache.step, hadd]
      refine h.same fun k hk => ?_
      obtain rfl : k = key := by simpa [added, hdecode] using hk
      exact (h.mem k).mp (Probing.mem_keys_of_present hsearch)
    · rw [UidCache.step, hadd]
      exact h.store hdecode hcapacity hsearch

lemma Sound.run {cache : Cache} {results : List (Call × Bool)} (h : Sound cache results) (calls : List Call) :
    Sound (run cache calls).1 (results ++ (run cache calls).2) := by
  induction calls generalizing cache results with
  | nil => simpa [UidCache.run] using h
  | cons call calls ih =>
    have hrest := ih (h.step call)
    rw [List.append_assoc] at hrest
    exact hrest

/-! ### An exact set -/

lemma mem_added {results : List (Call × Bool)} {key : Key} :
    key ∈ added results ↔ ∃ uid, (.add uid, true) ∈ results ∧ decode uid = some key := by
  rw [added, List.mem_filterMap]
  constructor
  · rintro ⟨⟨call, result⟩, hmem, hkey⟩
    cases call with
    | contains uid => cases hkey
    | add uid =>
      cases result with
      | false => cases hkey
      | true => exact ⟨uid, hmem, hkey⟩
  · rintro ⟨uid, hmem, hkey⟩
    exact ⟨_, hmem, hkey⟩

lemma Sound.contains_iff {cache : Cache} {results : List (Call × Bool)} (h : Sound cache results) (uid : Uid) :
    contains cache uid = true ↔ ∃ key, decode uid = some key ∧ key ∈ Probing.keys cache.slots := by
  rw [contains_eq_true]
  constructor
  · rintro ⟨_, key, hdecode, hsearch⟩
    exact ⟨key, hdecode, Probing.mem_keys_of_present hsearch⟩
  · rintro ⟨key, hdecode, hkey⟩
    have hcapacity : cache.capacity ≠ 0 := by
      intro hzero
      rw [List.eq_nil_of_length_eq_zero hzero] at hkey
      cases hkey
    exact ⟨hcapacity, key, hdecode, h.found key hkey⟩

lemma Sound.add_again {cache : Cache} {results : List (Call × Bool)} (h : Sound cache results) {uid : Uid} {key : Key}
    (hdecode : decode uid = some key) (hkey : key ∈ Probing.keys cache.slots) : add cache uid = (cache, true) := by
  have hcontains := (contains_eq_true.mp ((h.contains_iff uid).mpr ⟨key, hdecode, hkey⟩))
  obtain ⟨hcapacity, k, hk, hsearch⟩ := hcontains
  rw [add, if_neg hcapacity, hk]
  dsimp only
  rw [addLoop_eq, ← path, hsearch]

/-- The upper case of a hexadecimal digit. -/
def upper (c : UInt8) : UInt8 := if 0x61 ≤ c ∧ c ≤ 0x7a then c - 0x20 else c

lemma hex_upper (c : UInt8) : hex (upper c) = hex c := by
  have hall : ∀ n : BitVec 8, hex (upper ⟨n⟩) = hex ⟨n⟩ := by decide +kernel
  exact hall c.toBitVec

lemma decodePairs_upper : ∀ text : List UInt8, decodePairs (text.map upper) = decodePairs text
  | []               => rfl
  | [_]              => rfl
  | hi :: lo :: rest => by
    simp only [List.map_cons, decodePairs, hex_upper, decodePairs_upper rest]

lemma decode_upper (text : List UInt8) : decode (some (text.map upper)) = decode (some text) := by
  by_cases hlength : text.length = 64
  · simp [decode, Option.filter, hlength, decodePairs_upper]
  · simp [decode, Option.filter, hlength]

/-- The cache is the set of the keys that it took, and the case of their digits makes no difference. -/
theorem exact_set (capacity : Nat) (calls : List Call) :
    let cache := (run (zeroed capacity) calls).1
    let results := (run (zeroed capacity) calls).2
    (∀ uid, contains cache uid = true ↔
      ∃ key, decode uid = some key ∧ ∃ earlier, (.add earlier, true) ∈ results ∧ decode earlier = some key) ∧
    (∀ uid key earlier, decode uid = some key → (.add earlier, true) ∈ results → decode earlier = some key →
      add cache uid = (cache, true)) ∧
    (∀ text, decode (some (text.map upper)) = decode (some text)) ∧
    cache.count = (added results).toFinset.card ∧
    cache.count = cache.slots.countP (·.isSome) ∧
    ∀ (key : Key) (i j : Nat), cache.slots[i]? = some (some key) → cache.slots[j]? = some (some key) → i = j := by
  intro cache results
  have hsound : Sound cache results := (sound_zeroed capacity).run calls
  refine ⟨?_, ?_, decode_upper, ?_, ?_, ?_⟩
  · intro uid
    simp only [hsound.contains_iff, hsound.mem, mem_added]
  · intro uid key earlier hdecode hmem hearlier
    exact hsound.add_again hdecode ((hsound.mem key).mpr (mem_added.mpr ⟨earlier, hmem, hearlier⟩))
  · have hset : (added results).toFinset = (Probing.keys cache.slots).toFinset := by
      ext key
      rw [List.mem_toFinset, List.mem_toFinset, hsound.mem]
    rw [hset, List.toFinset_card_of_nodup hsound.nodup, hsound.count]
  · rw [hsound.count, Probing.length_keys]
  · intro key i j hi hj
    exact Probing.eq_of_getElem? hsound.nodup hi hj

end UidCache
