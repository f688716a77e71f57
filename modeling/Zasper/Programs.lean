import Mathlib.Logic.Basic

/-!
# Programs that call an operating system

A program ends with a result, stops (it runs out of fuel, follows a nil result, or
slices out of range), or makes a call and goes on with the reply. `Calls P` says of every call
that can be made, whatever the replies, that it satisfies `P`; `run` runs a program
in a world that answers its calls.
-/
namespace Zasper.Programs
set_option linter.unusedSimpArgs false
universe u

inductive Stop where
  | fuel
  | nilResult
  | outOfRange
deriving DecidableEq

inductive Program (Call : Type) (Reply : Call → Type) (α : Type u) where
  | done (a : α)
  | stop (why : Stop)
  | call (c : Call) (next : Reply c → Program Call Reply α)

namespace Program
variable {Call : Type} {Reply : Call → Type} {α β γ : Type u}

def bind (p : Program Call Reply α) (f : α → Program Call Reply β) : Program Call Reply β :=
  match p with
  | done a => f a
  | stop why => stop why
  | call c next => call c (fun reply => (next reply).bind f)

instance : Monad (Program Call Reply) where
  pure := done
  bind := bind

/-- Stops where there is no value to follow. -/
def follow (value : Option α) : Program Call Reply α :=
  match value with
  | some a => done a
  | none => stop .nilResult

@[simp] theorem done_bind (a : α) (f : α → Program Call Reply β) : (done a : Program Call Reply α) >>= f = f a := rfl
@[simp] theorem pure_bind (a : α) (f : α → Program Call Reply β) : (pure a : Program Call Reply α) >>= f = f a := rfl
@[simp] theorem stop_bind (why : Stop) (f : α → Program Call Reply β) :
    (stop why : Program Call Reply α) >>= f = stop why := rfl
@[simp] theorem call_bind (c : Call) (next : Reply c → Program Call Reply α) (f : α → Program Call Reply β) :
    call c next >>= f = call c (fun reply => next reply >>= f) := rfl

/-! ## Every call -/

/-- Every call that can be made satisfies `P`. -/
def Calls (P : Call → Prop) : Program Call Reply α → Prop
  | done _ => True
  | stop _ => True
  | call c next => P c ∧ ∀ reply, Calls P (next reply)

/-- The program can end with `a`. -/
def Ends : Program Call Reply α → α → Prop
  | done b, a => b = a
  | stop _, _ => False
  | call _ next, a => ∃ reply, Ends (next reply) a

@[simp] theorem calls_done (P : Call → Prop) (a : α) : Calls P (done a : Program Call Reply α) := trivial
@[simp] theorem calls_pure (P : Call → Prop) (a : α) : Calls P (pure a : Program Call Reply α) := trivial
@[simp] theorem calls_stop (P : Call → Prop) (why : Stop) : Calls P (stop why : Program Call Reply α) := trivial
theorem calls_call (P : Call → Prop) (c : Call) (next : Reply c → Program Call Reply α) :
    Calls P (call c next) ↔ P c ∧ ∀ reply, Calls P (next reply) := Iff.rfl
@[simp] theorem ends_pure (b a : α) : Ends (pure b : Program Call Reply α) a ↔ b = a := Iff.rfl
@[simp] theorem ends_done (b a : α) : Ends (done b : Program Call Reply α) a ↔ b = a := Iff.rfl
@[simp] theorem ends_stop (why : Stop) (a : α) : ¬ Ends (stop why : Program Call Reply α) a := id

@[simp] theorem calls_follow (P : Call → Prop) (value : Option α) :
    Calls P (follow value : Program Call Reply α) := by
  cases value <;> trivial

/-- The calls of a program and then of what follows each of its results. -/
theorem calls_bind {P : Call → Prop} {p : Program Call Reply α} {f : α → Program Call Reply β} :
    Calls P (p >>= f) ↔ Calls P p ∧ ∀ a, Ends p a → Calls P (f a) := by
  induction p with
  | done a => simp
  | stop why => simp
  | call c next ih =>
    simp only [call_bind,calls_call,ih]
    constructor
    · rintro ⟨here,later⟩
      refine ⟨⟨here,fun reply => (later reply).1⟩,?_⟩
      rintro a ⟨reply,ends⟩
      exact (later reply).2 a ends
    · rintro ⟨⟨here,calls⟩,later⟩
      exact ⟨here,fun reply => ⟨calls reply,fun a ends => later a ⟨reply,ends⟩⟩⟩

theorem ends_bind {p : Program Call Reply α} {f : α → Program Call Reply β} {b : β} :
    Ends (p >>= f) b ↔ ∃ a, Ends p a ∧ Ends (f a) b := by
  induction p with
  | done a => simp
  | stop why => simp
  | call c next ih =>
    simp only [call_bind,Ends,ih]
    constructor
    · rintro ⟨reply,a,first,second⟩
      exact ⟨a,⟨reply,first⟩,second⟩
    · rintro ⟨a,⟨reply,first⟩,second⟩
      exact ⟨reply,a,first,second⟩

/-- Every call satisfies `P`, and every result `Q`. -/
def Keeps (P : Call → Prop) (Q : α → Prop) (p : Program Call Reply α) : Prop := Calls P p ∧ ∀ a, Ends p a → Q a

theorem keeps_pure {P : Call → Prop} {Q : α → Prop} {a : α} (result : Q a) :
    Keeps P Q (pure a : Program Call Reply α) := ⟨trivial,fun _ ends => ends ▸ result⟩

theorem keeps_stop (P : Call → Prop) (Q : α → Prop) (why : Stop) : Keeps P Q (stop why : Program Call Reply α) :=
  ⟨trivial,fun _ ends => ends.elim⟩

/-- What one program gives the next may rely on. -/
theorem keeps_bind {P : Call → Prop} {Q : α → Prop} {R : β → Prop} {p : Program Call Reply α}
    {f : α → Program Call Reply β} (first : Keeps P Q p) (later : ∀ a, Q a → Keeps P R (f a)) : Keeps P R (p >>= f) := by
  refine ⟨calls_bind.mpr ⟨first.1,fun a ends => (later a (first.2 a ends)).1⟩,?_⟩
  intro b ends
  obtain ⟨a,firstEnds,secondEnds⟩ := ends_bind.mp ends
  exact (later a (first.2 a firstEnds)).2 b secondEnds

/-! ## Running -/

variable {World : Type}

/-- Runs a program in a world that answers each call and changes by it. -/
def run (answer : World → (c : Call) → World × Reply c) (w : World) : Program Call Reply α → World × Except Stop α
  | done a => (w,.ok a)
  | stop why => (w,.error why)
  | call c next =>
    let (w',reply) := answer w c
    run answer w' (next reply)

@[simp] theorem run_done (answer : World → (c : Call) → World × Reply c) (w : World) (a : α) :
    run answer w (done a : Program Call Reply α) = (w,.ok a) := rfl
@[simp] theorem run_pure (answer : World → (c : Call) → World × Reply c) (w : World) (a : α) :
    run answer w (pure a : Program Call Reply α) = (w,.ok a) := rfl
@[simp] theorem run_stop (answer : World → (c : Call) → World × Reply c) (w : World) (why : Stop) :
    run answer w (stop why : Program Call Reply α) = (w,.error why) := rfl
@[simp] theorem run_call (answer : World → (c : Call) → World × Reply c) (w : World) (c : Call)
    (next : Reply c → Program Call Reply α) :
    run answer w (call c next) = run answer (answer w c).1 (next (answer w c).2) := rfl

theorem run_bind (answer : World → (c : Call) → World × Reply c) (w : World) (p : Program Call Reply α)
    (f : α → Program Call Reply β) :
    run answer w (p >>= f) =
      match run answer w p with
      | (w',.ok a) => run answer w' (f a)
      | (w',.error why) => (w',.error why) := by
  induction p generalizing w with
  | done a => rfl
  | stop why => rfl
  | call c next ih => simp only [call_bind,run_call,ih]

/-- What a run ends with, the program can end with. -/
theorem ends_of_run {answer : World → (c : Call) → World × Reply c} {w : World} {p : Program Call Reply α} {a : α}
    (ended : (run answer w p).2 = .ok a) : Ends p a := by
  induction p generalizing w with
  | done b => simpa using ended
  | stop why => simp at ended
  | call c next ih => exact ⟨_,ih _ ended⟩

/-- A program whose calls do not change the world. -/
theorem run_world {answer : World → (c : Call) → World × Reply c} {P : Call → Prop}
    (kept : ∀ w c, P c → (answer w c).1 = w) {p : Program Call Reply α} (calls : Calls P p) (w : World) :
    (run answer w p).1 = w := by
  induction p generalizing w with
  | done a => rfl
  | stop why => rfl
  | call c next ih =>
    rw [run_call,kept w c calls.1]
    exact ih _ (calls.2 _) w

/-! ## The calls of a run -/

/-- The calls that a run makes, in their order. -/
def made (answer : World → (c : Call) → World × Reply c) (w : World) : Program Call Reply α → List Call
  | done _ => []
  | stop _ => []
  | call c next => c :: made answer (answer w c).1 (next (answer w c).2)

/-- The calls of a run are calls that can be made. -/
theorem of_made {answer : World → (c : Call) → World × Reply c} {P : Call → Prop} {p : Program Call Reply α}
    (calls : Calls P p) {w : World} {c : Call} (member : c ∈ made answer w p) : P c := by
  induction p generalizing w with
  | done a => exact absurd member List.not_mem_nil
  | stop why => exact absurd member List.not_mem_nil
  | call other next ih =>
    rcases List.mem_cons.mp member with rfl | later
    · exact calls.1
    · exact ih _ (calls.2 _) later

/-- A call is made before the first program ends, or by what follows its result. -/
theorem made_bind {answer : World → (c : Call) → World × Reply c} {w : World} {p : Program Call Reply α}
    {f : α → Program Call Reply β} {c : Call} (member : c ∈ made answer w (p >>= f)) :
    c ∈ made answer w p ∨ ∃ a, (run answer w p).2 = .ok a ∧ c ∈ made answer (run answer w p).1 (f a) := by
  induction p generalizing w with
  | done a => exact .inr ⟨a,rfl,member⟩
  | stop why => exact absurd member List.not_mem_nil
  | call other next ih =>
    rcases List.mem_cons.mp member with rfl | later
    · exact .inl List.mem_cons_self
    · rcases ih _ later with first | second
      · exact .inl (List.mem_cons_of_mem _ first)
      · exact .inr second

end Program
end Zasper.Programs
