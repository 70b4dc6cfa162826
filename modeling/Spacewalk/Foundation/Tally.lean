import Mathlib.Data.Finset.Card

/-!
# Counting with a map

A map from keys to counts is filled by looping over a list of keys: an absent key is
inserted with count one, a present key is counted up.  `represents_tally` says what the map
holds afterwards: exactly the keys of the list, each once, with its number of occurrences.
-/

namespace Foundation

variable {K : Type} [DecidableEq K] {m : List (K × Nat)} {ks : List K}

/-- Count the key `k` once more. -/
def bump (k : K) : List (K × Nat) → List (K × Nat)
  | [] => [(k, 1)]
  | (j, n) :: m => if j = k then (j, n + 1) :: m else (j, n) :: bump k m

/-- The counts of the keys of a list. -/
def tally (ks : List K) : List (K × Nat) :=
  ks.foldl (fun m k => bump k m) []

/-- The count of a key, if it is present. -/
def countOf (m : List (K × Nat)) (k : K) : Option Nat :=
  (m.find? fun p => p.1 = k).map Prod.snd

/-- The map holds every key of the list once, with its number of occurrences. -/
structure Represents (m : List (K × Nat)) (ks : List K) : Prop where
  nodup : (m.map Prod.fst).Nodup
  mem_iff : ∀ k n, (k, n) ∈ m ↔ k ∈ ks ∧ n = ks.count k

theorem map_fst_bump (k : K) (m : List (K × Nat)) :
    (bump k m).map Prod.fst =
      if k ∈ m.map Prod.fst then m.map Prod.fst else m.map Prod.fst ++ [k] := by
  induction m with
  | nil => simp [bump]
  | cons p m ih =>
    obtain ⟨j, n⟩ := p
    by_cases hj : j = k
    · simp [bump, hj]
    · have hk : k ≠ j := fun h => hj h.symm
      simp only [bump, hj, if_false, List.map_cons, ih, List.mem_cons, hk, false_or]
      split <;> simp

theorem mem_bump_of_ne {j k : K} (hj : j ≠ k) (n : Nat) (m : List (K × Nat)) :
    (j, n) ∈ bump k m ↔ (j, n) ∈ m := by
  induction m with
  | nil => simp [bump, hj]
  | cons p m ih =>
    obtain ⟨i, l⟩ := p
    by_cases hi : i = k
    · subst hi
      simp [bump, hj]
    · simp [bump, hi, ih]

theorem mem_bump_self (k : K) (n : Nat) (hm : (m.map Prod.fst).Nodup) :
    (k, n) ∈ bump k m ↔
      (∃ l, (k, l) ∈ m ∧ n = l + 1) ∨ (k ∉ m.map Prod.fst ∧ n = 1) := by
  induction m with
  | nil => simp [bump]
  | cons p m ih =>
    obtain ⟨i, l⟩ := p
    simp only [List.map_cons, List.nodup_cons] at hm
    by_cases hi : i = k
    · subst hi
      -- the head holds the key, the tail does not
      have habsent : ∀ l', (i, l') ∉ m := fun l' hl' =>
        hm.1 (List.mem_map_of_mem (f := Prod.fst) hl')
      simp [bump, habsent]
    · have hk : k ≠ i := fun h => hi h.symm
      simp only [bump, hi, if_false, List.mem_cons, Prod.mk.injEq, hk, false_and, false_or,
        ih hm.2, List.map_cons]

theorem Represents.bump (h : Represents m ks) (k : K) : Represents (bump k m) (ks ++ [k]) := by
  have hkeys : ∀ j, j ∈ m.map Prod.fst ↔ j ∈ ks := by
    intro j
    constructor
    · intro hj
      obtain ⟨⟨i, n⟩, hp, rfl⟩ := List.mem_map.mp hj
      exact ((h.mem_iff i n).mp hp).1
    · intro hj
      exact List.mem_map_of_mem (f := Prod.fst) ((h.mem_iff j _).mpr ⟨hj, rfl⟩)
  constructor
  · rw [map_fst_bump]
    split
    · exact h.nodup
    · rename_i hk
      refine List.nodup_append.mpr ⟨h.nodup, List.nodup_singleton k, ?_⟩
      intro a ha b hb
      rw [List.mem_singleton] at hb
      rintro rfl
      exact hk (hb ▸ ha)
  · intro j n
    by_cases hj : j = k
    · subst hj
      rw [mem_bump_self j n h.nodup, hkeys]
      simp only [h.mem_iff, List.mem_append, List.mem_singleton, or_true, true_and,
        List.count_append, List.count_singleton_self]
      constructor
      · rintro (⟨l, ⟨-, rfl⟩, rfl⟩ | ⟨hj, rfl⟩)
        · rfl
        · rw [List.count_eq_zero_of_not_mem hj]
      · rintro rfl
        by_cases hmem : j ∈ ks
        · exact Or.inl ⟨ks.count j, ⟨hmem, rfl⟩, rfl⟩
        · exact Or.inr ⟨hmem, by rw [List.count_eq_zero_of_not_mem hmem]⟩
    · have hk : k ≠ j := fun heq => hj heq.symm
      rw [mem_bump_of_ne hj, h.mem_iff]
      simp [hj, List.count_append, hk]

/-- The loop counts every key of the list. -/
theorem represents_tally (ks : List K) : Represents (tally ks) ks := by
  induction ks using List.reverseRecOn with
  | nil => exact ⟨List.nodup_nil, by simp [tally]⟩
  | append_singleton ks k ih =>
    rw [tally, List.foldl_append]
    exact ih.bump k

theorem Represents.countOf (h : Represents m ks) {k : K} (hk : k ∈ ks) :
    countOf m k = some (ks.count k) := by
  have hmem : (k, ks.count k) ∈ m := (h.mem_iff k _).mpr ⟨hk, rfl⟩
  cases hfind : m.find? (fun p => p.1 = k) with
  | none =>
    rw [List.find?_eq_none] at hfind
    exact absurd (decide_eq_true rfl) (hfind _ hmem)
  | some p =>
    obtain ⟨j, n⟩ := p
    have hj : j = k := by simpa using List.find?_some hfind
    subst hj
    have hn := ((h.mem_iff j n).mp (List.mem_of_find?_eq_some hfind)).2
    simp [Foundation.countOf, hfind, hn]

/-- The number of keys with a property of the count, over the keys of the list. -/
theorem Represents.length_filter (h : Represents m ks) (q : K → Nat → Bool) :
    (m.filter fun p => q p.1 p.2).length =
      (ks.toFinset.filter fun k => q k (ks.count k) = true).card := by
  have hnodup : ((m.filter fun p => q p.1 p.2).map Prod.fst).Nodup :=
    h.nodup.sublist ((List.filter_sublist).map _)
  have hset : ((m.filter fun p => q p.1 p.2).map Prod.fst).toFinset =
      ks.toFinset.filter fun k => q k (ks.count k) = true := by
    ext k
    simp only [List.mem_toFinset, List.mem_map, List.mem_filter, Prod.exists, exists_and_right,
      exists_eq_right, Finset.mem_filter, h.mem_iff]
    constructor
    · rintro ⟨n, ⟨hk, rfl⟩, hq⟩
      exact ⟨hk, hq⟩
    · rintro ⟨hk, hq⟩
      exact ⟨_, ⟨hk, rfl⟩, hq⟩
  rw [← hset, List.toFinset_card_of_nodup hnodup, List.length_map]

theorem Represents.length (h : Represents m ks) : m.length = ks.toFinset.card := by
  simpa using h.length_filter fun _ _ => true

/-- Counting finds as many keys as the list is long iff no key is repeated. -/
theorem length_eq_length_tally_iff (ks : List K) :
    ks.length = (tally ks).length ↔ ks.Nodup := by
  rw [(represents_tally ks).length, eq_comm]
  exact Multiset.toFinset_card_eq_card_iff_nodup (m := (ks : Multiset K))

end Foundation
