/-
From a world to the next one.

An act is read from its first step on: either that step answered, and the rest went on from
the world it left, or it failed, and that is the failure of the whole.  `run_bind_cases` is
this fact, and every account of an operation is told with it.

Of the worlds before and after, little matters to the bookkeeping: what became of the
object, which calls were made meanwhile, and that an act takes no time.  `Leads` says these
three, and steps that follow each other add up.
-/
import Mathlib
import PageArena.World

namespace PageArena

namespace Act

variable {ε σ α β : Type} {w w' : World σ}

/-- An act that begins with another either goes on from what that answered, or fails as it
did. -/
theorem run_bind_cases {first : Act ε σ α} {next : α → Act ε σ β} {answer : Except ε β}
    (h : (first >>= next).run w = (answer, w')) :
    (∃ a w₁, first.run w = (.ok a, w₁) ∧ (next a).run w₁ = (answer, w')) ∨
      ∃ e, first.run w = (.error e, w') ∧ answer = .error e := by
  rw [run_bind] at h
  rcases hf : first.run w with ⟨e | a, w₁⟩
  · rw [hf] at h
    obtain ⟨rfl, rfl⟩ := Prod.mk.inj h
    exact Or.inr ⟨e, rfl, rfl⟩
  · rw [hf] at h
    exact Or.inl ⟨a, w₁, rfl, h⟩

/-- Two acts go alike if they begin alike and go on alike from where that leads. -/
theorem run_bind_congr {first first' : Act ε σ α} {next next' : α → Act ε σ β}
    (begins : first.run w = first'.run w)
    (goesOn : ∀ a w₁, first.run w = (.ok a, w₁) → (next a).run w₁ = (next' a).run w₁) :
    (first >>= next).run w = (first' >>= next').run w := by
  rw [run_bind, run_bind, ← begins]
  rcases hrun : first.run w with ⟨e | a, w₁⟩
  · rfl
  · exact goesOn a w₁ hrun

/-! Steps at the head of an act that cannot fail. -/

theorem run_pure_bind (a : α) (next : α → Act ε σ β) (w : World σ) :
    (pure a >>= next).run w = (next a).run w := rfl

theorem run_world_bind (next : World σ → Act ε σ β) (w : World σ) :
    (world >>= next).run w = (next w).run w := rfl

theorem run_self_bind (next : σ → Act ε σ β) (w : World σ) :
    (self >>= next).run w = (next w.self).run w := rfl

theorem run_now_bind (next : Nat → Act ε σ β) (w : World σ) :
    (now >>= next).run w = (next w.kernel.clock).run w := rfl

end Act

/-- From one world to a later one: the object is now `s`, the calls were made, and the clock
shows the same time. -/
structure World.Leads {σ : Type} (w w' : World σ) (s : σ) (made : List OsCall.Record) :
    Prop where
  self : w'.self = s
  calls : w'.kernel.calls = w.kernel.calls ++ made
  clock : w'.kernel.clock = w.kernel.clock

namespace World.Leads

variable {σ : Type} {w w₁ w' : World σ} {s s₁ : σ} {made made₁ : List OsCall.Record}

theorem refl (w : World σ) : Leads w w w.self [] :=
  ⟨rfl, by simp, rfl⟩

theorem trans (first : Leads w w₁ s₁ made₁) (next : Leads w₁ w' s made) :
    Leads w w' s (made₁ ++ made) := by
  refine ⟨next.self, ?_, next.clock.trans first.clock⟩
  rw [next.calls, first.calls, List.append_assoc]

/-- A report adds nothing. -/
theorem report (h : Leads w w' s made) (log : List Event) :
    Leads w { w' with log := log } s made :=
  ⟨h.self, h.calls, h.clock⟩

/-- A change of the object is all that it is. -/
theorem change (h : Leads w w' s₁ made) (s : σ) : Leads w { w' with self := s } s made :=
  ⟨rfl, h.calls, h.clock⟩

end World.Leads

end PageArena
