import Mathlib.Control.Monad.Writer
import Spacewalk.Foundation.Dispatch

/-!
# Computations with a log

A log says what a computation did, where its start and end state do not: two programs with the same
effect on the state may have reached it by different operations.  A logged computation is a
transactional one that writes a list of entries on the side (`Logged`).  Forgetting the log gives
back a computation without one (`erase`), and a program is instrumented by a logged version that
erases to it; its runs and those of the program are then the same (`returns_erase`).

`Logs m s a log s'` says that `m` started in `s` succeeds with `a`, writes `log` and leaves `s'`.
As for `Returns`, every construct has an equivalence.
-/

namespace Foundation

variable {ω ε σ α β : Type}

/-- A computation that writes entries in `ω` to a log.  It is a structure of its own, so that a
computation without a log has to be lifted. -/
structure Logged (ω ε σ α : Type) where
  run : WriterT (List ω) (StateT σ (Except ε)) α

namespace Logged

instance monad : Monad (Logged ω ε σ) where
  pure a := ⟨pure a⟩
  bind m f := ⟨m.run >>= fun a => (f a).run⟩

/-- Without entries. -/
instance lift : MonadLift (StateT σ (Except ε)) (Logged ω ε σ) where
  monadLift m := ⟨liftM m⟩

end Logged

/-- Run a computation and write an entry. -/
def logging (entry : ω) (m : Dispatch ε σ Unit) : Logged ω ε σ Unit :=
  ⟨WriterT.mk ((fun u => (u, [entry])) <$> m)⟩

variable (m : Logged ω ε σ α)

/-- Forget the log. -/
def erase : Dispatch ε σ α := Prod.fst <$> m.run.run

/-! ## Erasure -/

theorem erase_pure (a : α) : erase (pure a : Logged ω ε σ α) = pure a := by
  rw [erase]
  exact map_pure Prod.fst (a, [])

theorem erase_bind (f : α → Logged ω ε σ β) :
    erase (m >>= f) = erase m >>= fun a => erase (f a) := by
  have hrun : (m >>= f).run.run =
      m.run.run >>= fun p => (fun q => (q.1, p.2 ++ q.2)) <$> (f p.1).run.run := rfl
  simp only [erase, hrun, map_bind, Functor.map_map, bind_map_left]

theorem erase_liftM (m : Dispatch ε σ α) : erase (liftM m : Logged ω ε σ α) = m := by
  have hrun : (liftM m : Logged ω ε σ α).run.run = (fun a => (a, [])) <$> m := rfl
  simp only [erase, hrun, Functor.map_map, id_map']

theorem erase_liftM_except (x : Except ε α) :
    erase (liftM x : Logged ω ε σ α) = (liftM x : Dispatch ε σ α) :=
  erase_liftM (liftM x : Dispatch ε σ α)

theorem erase_get : erase (get : Logged ω ε σ σ) = get :=
  erase_liftM get

theorem erase_logging (entry : ω) (m : Dispatch ε σ Unit) : erase (logging entry m) = m := by
  have hrun : (logging entry m).run.run = (fun u => (u, [entry])) <$> m := rfl
  simp only [erase, hrun, Functor.map_map, id_map']

theorem erase_ite {c : Prop} [Decidable c] (m n : Logged ω ε σ α) :
    erase (if c then m else n) = if c then erase m else erase n := by
  split <;> rfl

/-- The rules by which a log is erased. -/
theorem erase_rules : (type_of% @erase_pure) ∧ (type_of% @erase_bind) ∧ (type_of% @erase_liftM) ∧
    (type_of% @erase_liftM_except) ∧ (type_of% @erase_get) ∧ (type_of% @erase_logging) ∧
    type_of% @erase_ite :=
  ⟨erase_pure, erase_bind, erase_liftM, erase_liftM_except, erase_get, erase_logging, erase_ite⟩

/-! ## What is logged -/

/-- `m`, started in `s`, succeeds with value `a` in state `s'` and writes `log`. -/
def Logs (s : σ) (a : α) (log : List ω) (s' : σ) : Prop :=
  Returns m.run.run s (a, log) s'

section

variable {s s' : σ} {a b : α} {log log' : List ω} {f : α → Logged ω ε σ β}

theorem logs_pure : Logs (pure a : Logged ω ε σ α) s b log s' ↔ a = b ∧ log = [] ∧ s = s' := by
  have hrun : (pure a : Logged ω ε σ α).run.run = pure (a, []) := rfl
  rw [Logs, hrun, returns_pure, Prod.mk.injEq, and_assoc]
  exact and_congr_right fun _ => and_congr_left fun _ => eq_comm

/-- The log of a sequence is the log of its parts. -/
theorem logs_bind {m : Logged ω ε σ α} {b : β} :
    Logs (m >>= f) s b log s' ↔
      ∃ a s₁ log₁ log₂, Logs m s a log₁ s₁ ∧ Logs (f a) s₁ b log₂ s' ∧ log = log₁ ++ log₂ := by
  have hrun : (m >>= f).run.run =
      m.run.run >>= fun p => (fun q => (q.1, p.2 ++ q.2)) <$> (f p.1).run.run := rfl
  rw [Logs, hrun]
  simp only [returns_bind, returns_map]
  constructor
  · rintro ⟨⟨a, log₁⟩, s₁, hm, ⟨b', log₂⟩, hf, heq⟩
    obtain ⟨rfl, rfl⟩ := Prod.mk.inj heq
    exact ⟨a, s₁, log₁, log₂, hm, hf, rfl⟩
  · rintro ⟨a, s₁, log₁, log₂, hm, hf, rfl⟩
    exact ⟨(a, log₁), s₁, hm, (b, log₂), hf, rfl⟩

theorem logs_pure_bind {b : β} : Logs (pure a >>= f) s b log s' ↔ Logs (f a) s b log s' := by
  rw [logs_bind]
  constructor
  · rintro ⟨a', s₁, log₁, log₂, ha, hf, rfl⟩
    obtain ⟨rfl, rfl, rfl⟩ := logs_pure.mp ha
    exact hf
  · intro hf
    exact ⟨a, s, [], log, logs_pure.mpr ⟨rfl, rfl, rfl⟩, hf, rfl⟩

/-- A lifted computation writes nothing. -/
theorem logs_liftM {m : Dispatch ε σ α} :
    Logs (liftM m : Logged ω ε σ α) s a log s' ↔ Returns m s a s' ∧ log = [] := by
  have hrun : (liftM m : Logged ω ε σ α).run.run = (fun a => (a, [])) <$> m := rfl
  rw [Logs, hrun, returns_map]
  constructor
  · rintro ⟨a', hm, heq⟩
    obtain ⟨rfl, rfl⟩ := Prod.mk.inj heq
    exact ⟨hm, rfl⟩
  · rintro ⟨hm, rfl⟩
    exact ⟨a, hm, rfl⟩

theorem logs_logging {entry : ω} {m : Dispatch ε σ Unit} {u : Unit} :
    Logs (logging entry m) s u log s' ↔ Returns m s u s' ∧ log = [entry] := by
  have hrun : (logging entry m).run.run = (fun u => (u, [entry])) <$> m := rfl
  rw [Logs, hrun, returns_map]
  constructor
  · rintro ⟨u', hm, heq⟩
    obtain ⟨rfl, rfl⟩ := Prod.mk.inj heq
    exact ⟨hm, rfl⟩
  · rintro ⟨hm, rfl⟩
    exact ⟨u, hm, rfl⟩

instance decidableExistsLogs {m : Logged ω ε σ Unit} {p : List ω → σ → Prop}
    [∀ log s', Decidable (p log s')] : Decidable (∃ log s', Logs m s () log s' ∧ p log s') :=
  match hm : m.run.run.run s with
  | .ok ((_, log), s') => decidable_of_iff (p log s') (by simp [Logs, Returns, hm])
  | .error _ => isFalse (by simp [Logs, Returns, hm])

/-! A lifted computation in front of a program leaves the log to the program. -/

theorem logs_liftM_bind {m : Dispatch ε σ α} {b : β} :
    Logs (liftM m >>= f) s b log s' ↔ ∃ a s₁, Returns m s a s₁ ∧ Logs (f a) s₁ b log s' := by
  rw [logs_bind]
  constructor
  · rintro ⟨a, s₁, log₁, log₂, hm, hf, rfl⟩
    obtain ⟨hreturns, rfl⟩ := logs_liftM.mp hm
    exact ⟨a, s₁, hreturns, hf⟩
  · rintro ⟨a, s₁, hm, hf⟩
    exact ⟨a, s₁, [], log, logs_liftM.mpr ⟨hm, rfl⟩, hf, rfl⟩

theorem logs_liftM_except_bind {x : Except ε α} {b : β} :
    Logs (liftM x >>= f) s b log s' ↔ ∃ a, x = .ok a ∧ Logs (f a) s b log s' := by
  have hlift : (liftM x : Logged ω ε σ α) = liftM (liftM x : Dispatch ε σ α) := rfl
  rw [hlift, logs_liftM_bind]
  constructor
  · rintro ⟨a, s₁, hlifted, hf⟩
    obtain ⟨hx, rfl⟩ := returns_liftM.mp hlifted
    exact ⟨a, hx, hf⟩
  · rintro ⟨a, hx, hf⟩
    exact ⟨a, s, returns_liftM.mpr ⟨hx, rfl⟩, hf⟩

theorem logs_get_bind {f : σ → Logged ω ε σ β} {b : β} :
    Logs (get >>= f) s b log s' ↔ Logs (f s) s b log s' := by
  have hlift : (get : Logged ω ε σ σ) = liftM (get : Dispatch ε σ σ) := rfl
  rw [hlift, logs_liftM_bind]
  constructor
  · rintro ⟨a, s₁, hget, hf⟩
    obtain ⟨rfl, rfl⟩ := returns_get.mp hget
    exact hf
  · intro hf
    exact ⟨s, s, returns_get.mpr ⟨rfl, rfl⟩, hf⟩

theorem logs_logging_bind {entry : ω} {m : Dispatch ε σ Unit} {f : Unit → Logged ω ε σ β} {b : β} :
    Logs (logging entry m >>= f) s b log s' ↔
      ∃ s₁ rest, Returns m s () s₁ ∧ Logs (f ()) s₁ b rest s' ∧ log = entry :: rest := by
  rw [logs_bind]
  constructor
  · rintro ⟨⟨⟩, s₁, log₁, log₂, hm, hf, rfl⟩
    obtain ⟨hreturns, rfl⟩ := logs_logging.mp hm
    exact ⟨s₁, log₂, hreturns, hf, rfl⟩
  · rintro ⟨s₁, rest, hm, hf, rfl⟩
    exact ⟨(), s₁, [entry], rest, logs_logging.mpr ⟨hm, rfl⟩, hf, rfl⟩

/-- The rules by which a computation with a log is taken apart. -/
theorem logs_rules : (type_of% @logs_liftM_except_bind) ∧ (type_of% @logs_liftM_bind) ∧
    (type_of% @logs_logging_bind) ∧ (type_of% @logs_get_bind) ∧ (type_of% @logs_liftM) ∧
    type_of% @logs_pure :=
  ⟨logs_liftM_except_bind, logs_liftM_bind, logs_logging_bind, logs_get_bind, logs_liftM,
    logs_pure⟩

theorem logs_ite {c : Prop} [Decidable c] {m n : Logged ω ε σ α} :
    Logs (if c then m else n) s a log s' ↔ (c ∧ Logs m s a log s') ∨ (¬c ∧ Logs n s a log s') := by
  by_cases h : c <;> simp [h]

/-- The log of a computation does not change what it does. -/
theorem returns_erase {m : Logged ω ε σ α} :
    Returns (erase m) s a s' ↔ ∃ log, Logs m s a log s' := by
  rw [erase, returns_map]
  constructor
  · rintro ⟨⟨a', log⟩, hm, rfl⟩
    exact ⟨log, hm⟩
  · rintro ⟨log, hm⟩
    exact ⟨(a, log), hm, rfl⟩

end

end Foundation
