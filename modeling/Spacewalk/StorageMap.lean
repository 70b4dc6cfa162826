import Mathlib.Tactic.Linarith
import Spacewalk.Foundation.Dispatch
import Spacewalk.Primitives

/-!
# Storage maps of fixed-point numbers

The reward and the staking pallet keep their books in storage maps whose values are signed
fixed-point numbers with default zero.  A map is a component of the pallet's storage, given
by a lens, and one entry of it is changed at a time.  `returns_forM_addEntry` says what a loop
does that changes one entry in each round.
-/

namespace Spacewalk

open Foundation Function
open DispatchError (overflow underflow)

variable {σ K : Type} [DecidableEq K] (map : Lens σ (K → SignedFixedPoint)) (key : K)

/-- `checked_add_mut!`: add to one entry of a map. -/
def checkedAddMut (amount : SignedFixedPoint) : Dispatch DispatchError σ SignedFixedPoint := do
  let s ← get
  let value ← okOr ((map.get s key).checkedAdd amount) overflow
  set (map.put s (update (map.get s) key value))
  return value

/-- `checked_sub_mut!`: subtract from one entry of a map. -/
def checkedSubMut (amount : SignedFixedPoint) : Dispatch DispatchError σ SignedFixedPoint := do
  let s ← get
  let value ← okOr ((map.get s key).checkedSub amount) underflow
  set (map.put s (update (map.get s) key value))
  return value

/-- `StorageMap::insert`: overwrite one entry of a map. -/
def insertEntry (value : SignedFixedPoint) : Dispatch DispatchError σ Unit :=
  modify fun s => map.put s (update (map.get s) key value)

section

variable {map : Lens σ (K → SignedFixedPoint)} {key : K} {s s' : σ} {x r : SignedFixedPoint}

@[simp] theorem returns_checkedAddMut :
    Returns (checkedAddMut map key x) s r s' ↔
      r.inner = (map.get s key).inner + x.inner ∧
        map.put s (update (map.get s) key r) = s' := by
  simp [checkedAddMut]

@[simp] theorem returns_checkedSubMut :
    Returns (checkedSubMut map key x) s r s' ↔
      r.inner = (map.get s key).inner - x.inner ∧
        map.put s (update (map.get s) key r) = s' := by
  simp [checkedSubMut]

@[simp] theorem returns_insertEntry {u : Unit} :
    Returns (insertEntry map key x) s u s' ↔
      map.put s (update (map.get s) key x) = s' := by
  simp [insertEntry]

end

/-! ## Loops over entries -/

section

variable {C : Type} [DecidableEq C] {map : Lens σ (K → SignedFixedPoint)} {key : C → K}
  {e : C → ℤ} {s s' : σ}

/-- Changing the entry of the first element of a list first does not change the sum of all
changes. -/
theorem update_add_count {f : K → SignedFixedPoint} {c : C} {cs : List C} {r : SignedFixedPoint}
    (hkey : Injective key) (hr : r.inner = (f (key c)).inner + e c) (d : C) :
    (update f (key c) r (key d)).inner + cs.count d * e d =
      (f (key d)).inner + (c :: cs).count d * e d := by
  by_cases hd : c = d
  · subst hd
    rw [update_self, hr, List.count_cons_self]
    push_cast
    ring
  · have hne : key d ≠ key c := fun h => hd (hkey h).symm
    rw [update_of_ne hne, List.count_cons_of_ne hd]

/-- A loop that adds `e c` to the entry of `c` in each round: it succeeds iff every round can
compute its change and every entry stays representable in the end.  What the rounds read besides
the entries is the same in all of them (`P`). -/
theorem returns_forM_addEntry {P : σ → Prop} {rep : C → Prop}
    {body : C → Dispatch DispatchError σ Unit} {u : Unit} (hmap : map.Lawful)
    (hkey : Injective key) (hP : ∀ s m, P s → P (map.put s m))
    (hbody : ∀ c s u s', P s → (Returns (body c) s u s' ↔ rep c ∧
      ∃ r : SignedFixedPoint, r.inner = (map.get s (key c)).inner + e c ∧
        map.put s (update (map.get s) (key c) r) = s'))
    (cs : List C) (hs : P s) :
    Returns (forM cs body) s u s' ↔ (∀ c ∈ cs, rep c) ∧
      ∃ t : K → SignedFixedPoint,
        (∀ c, (t (key c)).inner = (map.get s (key c)).inner + cs.count c * e c) ∧
        (∀ k, (∀ c, k ≠ key c) → t k = map.get s k) ∧ map.put s t = s' := by
  induction cs generalizing s with
  | nil =>
    rw [returns_forM_nil]
    constructor
    · rintro rfl
      exact ⟨by simp, map.get s, by simp, fun _ _ => rfl, hmap.put_get s⟩
    · rintro ⟨-, t, ht, hother, rfl⟩
      have heq : t = map.get s := by
        funext k
        by_cases hk : ∃ c, k = key c
        · obtain ⟨c, rfl⟩ := hk
          exact FixedPoint.ext (by simpa using ht c)
        · exact hother k fun c hc => hk ⟨c, hc⟩
      rw [heq, hmap.put_get]
  | cons c cs ih =>
    rw [returns_forM_cons]
    constructor
    · rintro ⟨s₁, h₁, h₂⟩
      obtain ⟨hrep, r, hr, rfl⟩ := (hbody c s _ s₁ hs).mp h₁
      obtain ⟨hreps, t, ht, hother, rfl⟩ := (ih (hP _ _ hs)).mp h₂
      simp only [hmap.get_put] at ht hother
      refine ⟨List.forall_mem_cons.mpr ⟨hrep, hreps⟩, t, ?_, ?_, (hmap.put_put _ _ _).symm⟩
      · intro d
        exact (ht d).trans (update_add_count hkey hr d)
      · intro k hk
        exact (hother k hk).trans (update_of_ne (hk c) _ _)
    · rintro ⟨hreps, t, ht, hother, rfl⟩
      obtain ⟨hrep, hreps⟩ := List.forall_mem_cons.mp hreps
      have hfinal := ht c
      -- the intermediate entry lies between the old one and the final one
      obtain ⟨r, hr⟩ : ∃ r : SignedFixedPoint, r.inner = (map.get s (key c)).inner + e c := by
        rw [FixedPoint.exists_inner_eq]
        have h₁ := (map.get s (key c)).min_le
        have h₂ := (map.get s (key c)).le_max
        have h₃ := (t (key c)).min_le
        have h₄ := (t (key c)).le_max
        rw [List.count_cons_self] at hfinal
        push_cast at hfinal
        constructor
        · by_cases he : 0 ≤ e c
          · linarith
          · nlinarith [Int.natCast_nonneg (cs.count c)]
        · by_cases he : 0 ≤ e c
          · nlinarith [Int.natCast_nonneg (cs.count c)]
          · linarith
      refine ⟨_, (hbody c s _ _ hs).mpr ⟨hrep, r, hr, rfl⟩,
        (ih (hP _ _ hs)).mpr ⟨hreps, t, ?_, ?_, hmap.put_put _ _ _⟩⟩
      · intro d
        rw [hmap.get_put]
        exact (ht d).trans (update_add_count hkey hr d).symm
      · intro k hk
        rw [hmap.get_put]
        exact (hother k hk).trans (update_of_ne (hk c) _ _).symm

/-- A loop that adds to the entry of `c`, or takes from it, the product of `x` and a factor `f s c`
that does not depend on the entries. -/
theorem returns_forM_addScaled {f : σ → C → SignedFixedPoint} {x : SignedFixedPoint} {g : ℤ → ℤ}
    {m : K → SignedFixedPoint → Dispatch DispatchError σ Unit} {u : Unit} {t : σ} (hmap : map.Lawful)
    (hkey : Injective key) (hf : ∀ s entries, f (map.put s entries) = f s)
    (hm : ∀ k y s u s', Returns (m k y) s u s' ↔ ∃ r : SignedFixedPoint,
      r.inner = (map.get s k).inner + g y.inner ∧
        map.put s (update (map.get s) k r) = s') (cs : List C) :
    Returns (forM cs fun c => (do
        let s ← get
        let y ← okOr ((f s c).checkedMul x) overflow
        m (key c) y : Dispatch DispatchError σ Unit)) s u t ↔
      (∀ c ∈ cs, ∃ y : SignedFixedPoint,
        y.inner = ((f s c).inner * x.inner).tdiv signedFormat.div) ∧
      ∃ entries : K → SignedFixedPoint,
        (∀ c, (entries (key c)).inner = (map.get s (key c)).inner +
          cs.count c * g (((f s c).inner * x.inner).tdiv signedFormat.div)) ∧
        (∀ k, (∀ c, k ≠ key c) → entries k = map.get s k) ∧ map.put s entries = t := by
  refine returns_forM_addEntry (P := fun s₁ => f s₁ = f s) hmap hkey
    (fun s₁ entries hs₁ => (hf s₁ entries).trans hs₁) (fun c s₁ u s₂ hs₁ => ?_) cs rfl
  simp only [returns_rules, okOr_eq_ok, FixedPoint.checkedMul_eq_some, hm, ← hs₁]
  constructor
  · rintro ⟨_, _, ⟨rfl, rfl⟩, y, _, ⟨hy, rfl⟩, r, hr, rfl⟩
    exact ⟨⟨y, hy⟩, r, hy ▸ hr, rfl⟩
  · rintro ⟨⟨y, hy⟩, r, hr, rfl⟩
    exact ⟨s₁, s₁, ⟨rfl, rfl⟩, y, s₁, ⟨hy, rfl⟩, r, hy ▸ hr, rfl⟩

theorem returns_addMut (k : K) (y : SignedFixedPoint) (s : σ) (u : Unit) (s' : σ) :
    Returns (do let _ ← checkedAddMut map k y) s u s' ↔ ∃ r : SignedFixedPoint,
      r.inner = (map.get s k).inner + y.inner ∧
        map.put s (update (map.get s) k r) = s' := by
  simp only [returns_steps, returns_checkedAddMut, true_and]

theorem returns_subMut (k : K) (y : SignedFixedPoint) (s : σ) (u : Unit) (s' : σ) :
    Returns (do let _ ← checkedSubMut map k y) s u s' ↔ ∃ r : SignedFixedPoint,
      r.inner = (map.get s k).inner + -y.inner ∧
        map.put s (update (map.get s) k r) = s' := by
  simp only [returns_steps, returns_checkedSubMut, true_and, sub_eq_add_neg]

end

end Spacewalk
