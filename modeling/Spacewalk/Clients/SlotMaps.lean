import Mathlib.Data.List.Nodup
import Mathlib.Data.List.Pairwise
import Spacewalk.Foundation.Run

/-!
# The maps of the collector

The oracle of a vault keeps what it receives in two kinds of maps
(`clients/vault/src/oracle/types`).  A `LimitedFifoMap` is a queue with a limited number of entries;
a `DoubleSidedHashMap` is searched by keys and by values.

The queue is meant to be a map in order of insertion that drops its oldest entry for lack of room.
It is one along a sequence of calls if and only if no call appends a key for the second time and no
call sets the limit below the number of entries (`limitedFifoMap_orderly_iff`).  The two sides of the
other map stay inverse to each other if and only if no call connects a known key or a known value
with another one (`doubleSidedHashMap_inverse_iff`).
-/

namespace Spacewalk.Clients

open Foundation Function

/-- The least number of items that a map can hold before it drops some. -/
def defaultMaxItemsInQueue : ℕ := 200

/-- A map with a limited number of entries, which are kept in a queue. -/
structure LimitedFifoMap (K V : Type) where
  limit : ℕ
  queue : List (K × V)

namespace LimitedFifoMap

variable {K V : Type}

/-- The map without entries and with the default limit. -/
def new : LimitedFifoMap K V := ⟨defaultMaxItemsInQueue, []⟩

variable (m : LimitedFifoMap K V)

/-- Set the limit, which cannot be below the default.  The entries stay. -/
def withLimit (limit : ℕ) : LimitedFifoMap K V :=
  if limit < defaultMaxItemsInQueue then { m with limit := defaultMaxItemsInQueue }
  else { m with limit := limit }

/-- Move the last entries of another map to the end, as many as there is room for, and return the
others.  The subtraction panics if there are more entries than the limit allows. -/
def append (other : LimitedFifoMap K V) : Option (List (K × V) × LimitedFifoMap K V) :=
  if m.limit < m.queue.length then none
  else
    let allowableSize := m.limit - m.queue.length
    if other.queue.length > allowableSize then
      let splitIndex := other.queue.length - allowableSize
      some (other.queue.take splitIndex, { m with queue := m.queue ++ other.queue.drop splitIndex })
    else some ([], { m with queue := m.queue ++ other.queue })

variable [DecidableEq K]

def get (key : K) : Option V := (m.queue.find? fun e => e.1 = key).map Prod.snd

def contains (key : K) : Bool := m.queue.any fun e => e.1 = key

/-- Remove the first entry of a key.  Returns its value. -/
def remove (key : K) : Option V × LimitedFifoMap K V :=
  (m.get key, { m with queue := m.queue.eraseP fun e => e.1 = key })

/-- The entries that stay when another one comes: the oldest is dropped if the limit is reached. -/
def kept : List (K × V) :=
  if m.queue.length = m.limit then m.queue.tail else m.queue

/-- Put an entry at the end, in the place of the old entry of the key.  Returns the old value. -/
def insert (key : K) (value : V) : Option V × LimitedFifoMap K V :=
  let (oldValue, m) := m.remove key
  (oldValue, { m with queue := m.kept ++ [(key, value)] })

/-! ## Calls -/

/-- The calls that change a map. -/
inductive Call (K V : Type) where
  | insert (key : K) (value : V)
  | remove (key : K)
  | append (other : LimitedFifoMap K V)
  | withLimit (limit : ℕ)

/-- The map after a call, unless the call panics. -/
def call : Call K V → Option (LimitedFifoMap K V)
  | .insert key value => some (m.insert key value).2
  | .remove key => some (m.remove key).2
  | .append other => (m.append other).map Prod.snd
  | .withLimit limit => some (m.withLimit limit)

/-- The last entries of another map that there is room for. -/
def fitting (other : LimitedFifoMap K V) : List (K × V) :=
  other.queue.drop (other.queue.length - (m.limit - m.queue.length))

/-- The entries that a call puts into the map. -/
def inserted : Call K V → List (K × V)
  | .insert key value => [(key, value)]
  | .remove _ => []
  | .append other => m.fitting other
  | .withLimit _ => []

/-- The map, unless a call panicked, and everything that was ever put into it. -/
abbrev Recorded (K V : Type) := Option (LimitedFifoMap K V) × List (K × V)

/-- Make a call and record what it puts into the map. -/
def step (s : Recorded K V) (c : Call K V) : Recorded K V :=
  (s.1.bind fun m => m.call c, s.2 ++ s.1.elim [] fun m => m.inserted c)

/-- The last entry of each key, in the order in which they were put into the map. -/
def latest (log : List (K × V)) : List (K × V) := log.pwFilter fun a b => a.1 ≠ b.1

/-- A bounded map in order of insertion, when the logged entries were put into it. -/
structure Orderly (log : List (K × V)) (m : LimitedFifoMap K V) : Prop where
  length_le : m.queue.length ≤ m.limit
  nodup : (m.queue.map Prod.fst).Nodup
  get_latest : ∀ key value, m.get key = some value →
    log.reverse.find? (fun e => e.1 = key) = some (key, value)
  ordered : m.queue.Sublist (latest log)

/-- The keys that a call may drop: the key that it removes, and the oldest if the limit is
reached. -/
def MayDrop (c : Call K V) (key : K) : Prop :=
  c = .remove key ∨ (∃ other value, c = .insert other value) ∧ m.queue.length = m.limit ∧
    m.queue.head?.map Prod.fst = some key

/-- The call returns, leads to a bounded map in order of insertion, and drops nothing else. -/
def Correct (s : Recorded K V) (c : Call K V) (t : Recorded K V) : Prop :=
  ∃ m m', s.1 = some m ∧ t.1 = some m' ∧ m'.Orderly t.2 ∧
    ∀ key, m.contains key → ¬ m'.contains key → m.MayDrop c key

/-- The call appends no key for the second time, and does not set the limit below the number of
entries. -/
def Harmless : Call K V → Prop
  | .insert _ _ => True
  | .remove _ => True
  | .append other => ((m.queue ++ m.fitting other).map Prod.fst).Nodup
  | .withLimit limit => m.queue.length ≤ max defaultMaxItemsInQueue limit

/-! ## Orders of insertion -/

variable {m} {log q added : List (K × V)} {m' : LimitedFifoMap K V} {key : K} {value : V}

theorem latest_cons (e : K × V) (log : List (K × V)) :
    latest (e :: log) = if ∀ b ∈ log, e.1 ≠ b.1 then e :: latest log else latest log := by
  have hiff := List.forall_mem_pwFilter (R := fun a b : K × V => a.1 ≠ b.1) (by
    intro x y z hne
    by_contra! hcon
    exact hne (hcon.1.trans hcon.2)) e log
  split_ifs with hlast
  · exact List.pwFilter_cons_of_pos (hiff.mpr hlast)
  · exact List.pwFilter_cons_of_neg (hlast ∘ hiff.mp)

/-- New entries with new keys come after those that are there. -/
theorem sublist_latest_append (h : q.Sublist (latest log))
    (hnodup : ((q ++ added).map Prod.fst).Nodup) :
    (q ++ added).Sublist (latest (log ++ added)) := by
  rw [List.Nodup, List.pairwise_map] at hnodup
  induction log generalizing q with
  | nil =>
    obtain rfl := List.sublist_nil.mp h
    rw [List.nil_append] at hnodup ⊢
    have hsame : latest added = added := List.pwFilter_eq_self.mpr hnodup
    exact hsame.symm ▸ List.Sublist.refl added
  | cons e log ih =>
    rw [List.cons_append, latest_cons]
    rw [latest_cons] at h
    split_ifs at h with hlast
    · cases h with
      | cons _ h =>
        refine (ih h hnodup).trans ?_
        split_ifs
        · exact List.sublist_cons_self _ _
        · exact List.Sublist.refl _
      | cons_cons _ h =>
        obtain ⟨hfirst, hrest⟩ := List.pairwise_cons.mp hnodup
        rw [if_pos]
        · exact (ih h hrest).cons_cons e
        · intro b hb
          rcases List.mem_append.mp hb with hb | hb
          · exact hlast b hb
          · exact hfirst b (List.mem_append_right _ hb)
    · refine (ih h hnodup).trans ?_
      split_ifs
      · exact List.sublist_cons_self _ _
      · exact List.Sublist.refl _

theorem find?_reverse_of_mem_latest {e : K × V} (h : e ∈ latest log) :
    log.reverse.find? (fun b => b.1 = e.1) = some e := by
  induction log with
  | nil => exact absurd h List.not_mem_nil
  | cons a log ih =>
    rw [latest_cons] at h
    rw [List.reverse_cons, List.find?_append]
    split_ifs at h with hlast
    · rcases List.mem_cons.mp h with rfl | h
      · have hnone : log.reverse.find? (fun b => b.1 = e.1) = none := by
          refine List.find?_eq_none.mpr fun b hb => ?_
          simpa [eq_comm] using hlast b (List.mem_reverse.mp hb)
        simp [hnone]
      · rw [ih h, Option.some_or]
    · rw [ih h, Option.some_or]

theorem mem_of_get (h : m.get key = some value) : (key, value) ∈ m.queue := by
  obtain ⟨⟨k, x⟩, hfind, rfl⟩ := Option.map_eq_some_iff.mp h
  obtain rfl : k = key := by simpa using List.find?_some hfind
  exact List.mem_of_find?_eq_some hfind

theorem orderly_of_sublist (hlength : m.queue.length ≤ m.limit) (h : m.queue.Sublist (latest log)) :
    m.Orderly log where
  length_le := hlength
  nodup := List.pairwise_map.mpr ((List.pairwise_pwFilter log).sublist h)
  get_latest _ _ hget := find?_reverse_of_mem_latest (h.subset (mem_of_get hget))
  ordered := h

theorem contains_iff : m.contains key ↔ key ∈ m.queue.map Prod.fst := by
  simp [contains]

omit [DecidableEq K] in
theorem kept_sublist (m : LimitedFifoMap K V) : m.kept.Sublist m.queue := by
  rw [kept]
  split_ifs
  · exact List.tail_sublist _
  · exact List.Sublist.refl _

/-- Every entry has a property. -/
def All (P : K → V → Prop) (m : LimitedFifoMap K V) : Prop := ∀ e ∈ m.queue, P e.1 e.2

theorem All.remove {P : K → V → Prop} (h : m.All P) : (m.remove key).2.All P :=
  fun e he => h e (List.mem_of_mem_eraseP he)

theorem All.insert {P : K → V → Prop} (h : m.All P) (hvalue : P key value) :
    (m.insert key value).2.All P := by
  intro e he
  rcases List.mem_append.mp he with hkept | hnew
  · exact h.remove e ((kept_sublist _).subset hkept)
  · rwa [List.mem_singleton.mp hnew]

theorem notMem_eraseP (h : (q.map Prod.fst).Nodup) :
    key ∉ (q.eraseP fun e => e.1 = key).map Prod.fst := by
  induction q with
  | nil => exact List.not_mem_nil
  | cons e q ih =>
    obtain ⟨hfirst, hrest⟩ := List.nodup_cons.mp h
    by_cases hkey : e.1 = key
    · rw [List.eraseP_cons_of_pos (by simpa using hkey), ← hkey]
      exact hfirst
    · rw [List.eraseP_cons_of_neg (by simpa using hkey), List.map_cons, List.mem_cons, not_or]
      exact ⟨Ne.symm hkey, ih hrest⟩

theorem mem_eraseP {other : K} (h : other ∈ q.map Prod.fst) (hne : other ≠ key) :
    other ∈ (q.eraseP fun e => e.1 = key).map Prod.fst := by
  obtain ⟨e, he, rfl⟩ := List.mem_map.mp h
  exact List.mem_map_of_mem ((List.mem_eraseP_of_neg (by simpa using hne)).mpr he)

/-! ## One call -/

section

variable (h : m.Orderly log)

include h

theorem Orderly.remove : (m.remove key).2.Orderly log :=
  orderly_of_sublist ((List.length_eraseP_le).trans h.length_le)
    ((List.eraseP_sublist).trans h.ordered)

theorem Orderly.insert (hpos : 0 < m.limit) :
    (m.insert key value).2.Orderly (log ++ [(key, value)]) := by
  have hremove : (m.remove key).2.Orderly log := h.remove
  have hsub := (m.remove key).2.kept_sublist
  refine orderly_of_sublist ?_ (sublist_latest_append (hsub.trans hremove.ordered) ?_)
  · have hle : (m.remove key).2.queue.length ≤ m.limit := hremove.length_le
    change ((m.remove key).2.kept ++ [(key, value)]).length ≤ m.limit
    rw [List.length_append, List.length_singleton, kept]
    split_ifs with hfull
    · rw [List.length_tail]
      omega
    · exact Nat.lt_of_le_of_ne hle hfull
  · rw [List.map_append]
    refine List.nodup_append.mpr ⟨hremove.nodup.sublist (hsub.map _), by simp, ?_⟩
    intro a ha b hb
    obtain rfl : b = key := by simpa using hb
    rintro rfl
    exact notMem_eraseP h.nodup ((hsub.map _).subset ha)

theorem Orderly.mayDrop_insert {other : K} (hother : m.contains other)
    (hdropped : ¬ (m.insert key value).2.contains other) :
    m.MayDrop (.insert key value) other := by
  rw [contains_iff] at hother hdropped
  change other ∉ ((m.remove key).2.kept ++ [(key, value)]).map Prod.fst at hdropped
  rw [List.map_append, List.mem_append, not_or, kept] at hdropped
  obtain ⟨hkept, hne⟩ := hdropped
  split_ifs at hkept with hfull
  · -- if the limit is reached without the key, then the key was not there
    have hsame : (m.queue.eraseP fun e => e.1 = key) = m.queue :=
      List.eraseP_sublist.eq_of_length_le (h.length_le.trans_eq hfull.symm)
    rw [LimitedFifoMap.remove, hsame] at hfull hkept
    refine .inr ⟨⟨key, value, rfl⟩, hfull, ?_⟩
    cases hqueue : m.queue with
    | nil => simp [hqueue] at hother
    | cons e rest =>
      rw [hqueue, List.map_cons, List.mem_cons] at hother
      rw [hqueue, List.tail_cons] at hkept
      rw [List.head?_cons, Option.map_some, hother.resolve_right hkept]
  · exact absurd (mem_eraseP hother (by simpa using hne)) hkept

theorem Orderly.append_eq (other : LimitedFifoMap K V) :
    (m.append other).map Prod.snd = some { m with queue := m.queue ++ m.fitting other } := by
  have hle := h.length_le
  rw [append, if_neg (by omega), fitting]
  dsimp only
  split_ifs with hlarge
  · rfl
  · rw [Nat.sub_eq_zero_of_le (by omega)]
    rfl

theorem Orderly.append_iff {other : LimitedFifoMap K V} :
    Orderly (log ++ m.fitting other) { m with queue := m.queue ++ m.fitting other } ↔
      m.Harmless (.append other) := by
  refine ⟨fun h' => h'.nodup, fun hnodup => ?_⟩
  refine orderly_of_sublist ?_ (sublist_latest_append h.ordered hnodup)
  have hle := h.length_le
  rw [List.length_append, fitting, List.length_drop]
  dsimp only
  omega

omit [DecidableEq K] h in
theorem withLimit_eq (limit : ℕ) :
    m.withLimit limit = { m with limit := max defaultMaxItemsInQueue limit } := by
  rw [withLimit]
  split_ifs with hlow
  · rw [max_eq_left hlow.le]
  · rw [max_eq_right (not_lt.mp hlow)]

theorem Orderly.limit_pos {c : Call K V} (hpos : 0 < m.limit) (hcall : m.call c = some m') :
    0 < m'.limit := by
  cases c with
  | insert key value | remove key =>
    obtain rfl := Option.some.inj hcall
    exact hpos
  | append other =>
    obtain rfl := Option.some.inj ((h.append_eq other).symm.trans hcall)
    exact hpos
  | withLimit limit =>
    obtain rfl := Option.some.inj hcall
    rw [withLimit_eq]
    exact Nat.lt_of_lt_of_le (Nat.succ_pos _) (le_max_left _ _)

/-- A call is correct if and only if it is harmless. -/
theorem Orderly.correct_iff (hpos : 0 < m.limit) (c : Call K V) :
    Correct (some m, log) c (step (some m, log) c) ↔ m.Harmless c := by
  have hkeeps : ∀ m' : LimitedFifoMap K V, m.call c = some m' →
      (∀ key, m.contains key → ¬ m'.contains key → m.MayDrop c key) →
      (Correct (some m, log) c (step (some m, log) c) ↔ m'.Orderly (log ++ m.inserted c)) := by
    intro m' hcall hdrops
    constructor
    · rintro ⟨_, m'', -, hm'', horderly, -⟩
      obtain rfl := Option.mem_unique hcall hm''
      exact horderly
    · intro horderly
      exact ⟨m, m', rfl, hcall, horderly, hdrops⟩
  cases c with
  | insert key value =>
    rw [hkeeps _ rfl fun other => h.mayDrop_insert]
    exact iff_of_true (h.insert hpos) trivial
  | remove key =>
    rw [hkeeps _ rfl, inserted, List.append_nil]
    · exact iff_of_true h.remove trivial
    · intro other hother hdropped
      rw [contains_iff] at hother hdropped
      by_contra hcon
      exact hdropped (mem_eraseP hother fun heq => hcon (.inl (heq ▸ rfl)))
  | append other =>
    rw [hkeeps _ (h.append_eq other)]
    · exact h.append_iff
    · intro key hkey hdropped
      rw [contains_iff] at hkey hdropped
      exact absurd (List.map_append ▸ List.mem_append_left _ hkey) hdropped
  | withLimit limit =>
    rw [hkeeps _ (congrArg some (withLimit_eq limit)), inserted, List.append_nil]
    · exact ⟨fun h' => h'.length_le, fun hle => orderly_of_sublist hle h.ordered⟩
    · intro key hkey hdropped
      exact absurd hkey hdropped

end

/-! ## Sequences of calls -/

/-- Every call of a sequence leaves a bounded map in order of insertion, without a panic, if and only
if no call appends a key for the second time and no call sets the limit below the number of
entries. -/
theorem limitedFifoMap_orderly_iff (calls : List (Call K V)) (t : Recorded K V) :
    Run (fun s c t => t = step s c ∧ Correct s c t) (some new, []) calls t ↔
      Run (fun s c t => t = step s c ∧ ∀ m, s.1 = some m → m.Harmless c) (some new, []) calls t := by
  refine Run.and_congr (I := fun s => ∃ m log, s = (some m, log) ∧ m.Orderly log ∧ 0 < m.limit)
    ?_ ?_ ⟨new, [], rfl, orderly_of_sublist (Nat.zero_le _) (List.nil_sublist _), Nat.succ_pos _⟩
  · rintro _ c _ ⟨m, log, rfl, horderly, hpos⟩ rfl
    rw [horderly.correct_iff hpos]
    constructor
    · intro hharmless _ hm
      exact Option.some.inj hm ▸ hharmless
    · intro hharmless
      exact hharmless m rfl
  · rintro _ c _ ⟨m, log, rfl, hm, hpos⟩ rfl ⟨_, m', -, hm', horderly, -⟩
    exact ⟨m', _, Prod.ext hm' rfl, horderly, hm.limit_pos hpos hm'⟩

/-- An entry is appended for a key that has one: afterwards the key has two. -/
theorem limitedFifoMap_appends_twice :
    [Call.insert 1 10, Call.append ⟨200, [(1, 11)]⟩].foldl step (some new, []) =
      (some (⟨200, [(1, 10), (1, 11)]⟩ : LimitedFifoMap ℕ ℕ), [(1, 10), (1, 11)]) ∧
    ¬ ∃ t, Run (fun s c t => t = step s c ∧ Correct s c t) (some (new : LimitedFifoMap ℕ ℕ), [])
      [Call.insert 1 10, Call.append ⟨200, [(1, 11)]⟩] t := by
  refine ⟨rfl, ?_⟩
  rintro ⟨t, hrun⟩
  simp only [Run.cons_iff] at hrun
  obtain ⟨_, ⟨rfl, -⟩, _, ⟨rfl, _, m', -, hm', horderly, -⟩, -⟩ := hrun
  obtain rfl := Option.some.inj hm'
  exact absurd horderly.nodup (by decide)

end LimitedFifoMap

/-- A map that is searched by keys and by values. -/
structure DoubleSidedHashMap (K V : Type) where
  kToVMap : K → Option V
  vToKMap : V → Option K

namespace DoubleSidedHashMap

variable {K V : Type}

/-- The map without entries. -/
def new : DoubleSidedHashMap K V := ⟨fun _ => none, fun _ => none⟩

def swap (m : DoubleSidedHashMap K V) : DoubleSidedHashMap V K := ⟨m.vToKMap, m.kToVMap⟩

variable [DecidableEq K] [DecidableEq V] (m : DoubleSidedHashMap K V)

/-- Add an entry to both sides. -/
def insert (k : K) (v : V) : DoubleSidedHashMap K V :=
  ⟨update m.kToVMap k (some v), update m.vToKMap v (some k)⟩

/-- Remove a key, and then its value from the other side.  If the value is not there, then the key
is removed without a result. -/
def removeByTxsetHash (k : K) : Option V × DoubleSidedHashMap K V :=
  match m.kToVMap k with
  | none => (none, m)
  | some v =>
    (if (m.vToKMap v).isSome then some v else none,
      ⟨update m.kToVMap k none, update m.vToKMap v none⟩)

/-- Remove a value in the same way, and then its key. -/
def removeBySlot (v : V) : Option K × DoubleSidedHashMap K V :=
  let (k, m) := m.swap.removeByTxsetHash v
  (k, m.swap)

/-- The calls that change a map. -/
inductive Call (K V : Type) where
  | insert (k : K) (v : V)
  | removeBySlot (v : V)
  | removeByTxsetHash (k : K)

def call : Call K V → DoubleSidedHashMap K V
  | .insert k v => m.insert k v
  | .removeBySlot v => (m.removeBySlot v).2
  | .removeByTxsetHash k => (m.removeByTxsetHash k).2

/-- The two sides are inverse to each other. -/
def Inverse : Prop :=
  ∀ k v, m.kToVMap k = some v ↔ m.vToKMap v = some k

/-- The removal of a key returns its value if there is one, and the key is in neither side
afterwards. -/
def Removed (k : K) (r : Option V × DoubleSidedHashMap K V) : Prop :=
  r.1 = m.kToVMap k ∧ r.2.kToVMap k = none ∧ ∀ v, r.2.vToKMap v ≠ some k

/-- What a removal is meant to do. -/
def Removes : Call K V → Prop
  | .insert _ _ => True
  | .removeBySlot v => m.swap.Removed v ((m.removeBySlot v).1, (m.removeBySlot v).2.swap)
  | .removeByTxsetHash k => m.Removed k (m.removeByTxsetHash k)

/-- The call connects no known key and no known value with another one. -/
def Agrees : Call K V → Prop
  | .insert k v => (∀ v', m.kToVMap k = some v' → v' = v) ∧ ∀ k', m.vToKMap v = some k' → k' = k
  | .removeBySlot _ => True
  | .removeByTxsetHash _ => True

variable {m} {k : K} {v : V}

omit [DecidableEq K] [DecidableEq V] in
theorem Inverse.swap (h : m.Inverse) : m.swap.Inverse := fun v k => (h k v).symm

theorem Inverse.insert_iff (h : m.Inverse) : (m.insert k v).Inverse ↔ m.Agrees (.insert k v) := by
  simp only [Inverse, insert, Agrees, update_apply] at h ⊢
  constructor
  · intro h'
    constructor
    · intro v' hv'
      have hback := h' k v'
      grind
    · intro k' hk'
      have hforth := h' k' v
      grind
  · rintro ⟨hvalue, hkey⟩ k' v'
    grind

/-- In a map with inverse sides a key is removed from both of them. -/
theorem Inverse.removed (h : m.Inverse) (k : K) :
    (m.removeByTxsetHash k).2.Inverse ∧ m.Removed k (m.removeByTxsetHash k) := by
  rw [removeByTxsetHash, Removed]
  cases hv : m.kToVMap k with
  | none =>
    refine ⟨h, rfl, hv, fun v hback => ?_⟩
    rw [(h k v).mpr hback] at hv
    cases hv
  | some v =>
    have hback := (h k v).mp hv
    simp only [Inverse, update_apply, hback] at h ⊢
    refine ⟨fun k' v' => ?_, if_pos rfl, if_pos trivial, fun v' => ?_⟩
    · grind
    · have hforth := h k v'
      grind

/-- The two sides are inverse after every call of a sequence, and every removal removes what is
there from both of them, if and only if no call connects a known key or a known value with another
one. -/
theorem doubleSidedHashMap_inverse_iff (calls : List (Call K V)) (t : DoubleSidedHashMap K V) :
    Run (fun m c m' => m' = m.call c ∧ (m'.Inverse ∧ m.Removes c)) new calls t ↔
      Run (fun m c m' => m' = m.call c ∧ m.Agrees c) new calls t := by
  refine Run.and_congr (I := Inverse) ?_ (fun _ _ _ _ _ h => h.1) (fun k v => by simp [new])
  rintro m c _ h rfl
  cases c with
  | insert k v => exact (and_iff_left trivial).trans h.insert_iff
  | removeBySlot v =>
    obtain ⟨hinverse, hremoved⟩ := h.swap.removed v
    exact iff_of_true ⟨hinverse.swap, hremoved⟩ trivial
  | removeByTxsetHash k => exact iff_of_true (h.removed k) trivial

/-- A hash is saved for two slots: the first slot still leads to the hash, but not the other way. -/
theorem doubleSidedHashMap_one_sided :
    let m : DoubleSidedHashMap ℕ ℕ := [Call.insert 7 1, Call.insert 7 2].foldl call new
    m.vToKMap 1 = some 7 ∧ m.kToVMap 7 = some 2 ∧ (m.removeBySlot 2).1 = some 7 ∧
      ((m.removeBySlot 2).2.removeBySlot 1).1 = none := by
  decide

end DoubleSidedHashMap

end Spacewalk.Clients
