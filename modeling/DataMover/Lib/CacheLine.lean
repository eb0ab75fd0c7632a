import Mathlib.Data.List.Basic
import Mathlib.Logic.Function.Basic

/-!
# Cache lines and the instructions that flush them

A processor keeps copies of lines of memory in its caches.  An instruction that flushes names an
address and acts on the line that holds it; what the line was decides what it becomes.  The
lines are of any type, `lineOf` gives the line of an address.

## Main definitions

* `LineState` — what the caches know of a line.
* `Instruction`, `Instruction.effect` — the instructions, and what one does to its line.
* `run` — a sequence of instructions on all lines.
* `Reaches` — a sequence has an instruction for a line.

## Main results

* `run_of_not_reaches` — a line that no instruction names stays as it was.
* `run_of_reaches` — a line that is named, where all instructions have one effect.
-/

namespace CacheLine

/-- What the caches hold of a line: nothing, a copy of memory, or newer bytes. -/
inductive LineState
  | absent
  | clean
  | modified
  deriving DecidableEq, Repr

/-- The newer bytes go to memory, the copy stays. -/
def LineState.writtenBack : LineState → LineState
  | .modified => .clean
  | s => s

/-- The line leaves the caches, after its newer bytes went to memory. -/
def LineState.evicted (_ : LineState) : LineState := .absent

@[simp] theorem LineState.writtenBack_writtenBack (s : LineState) :
    s.writtenBack.writtenBack = s.writtenBack := by
  cases s <;> rfl

/-- The fence, and the instructions that flush the line of an address. -/
inductive Instruction (α : Type*)
  | mfence
  | clflush (a : α)
  | clflushopt (a : α)
  | clwb (a : α)
  deriving DecidableEq, Repr

variable {α ι : Type*}

namespace Instruction

/-- The address an instruction names. -/
def address : Instruction α → Option α
  | mfence => none
  | clflush a | clflushopt a | clwb a => some a

/-- What an instruction does to the line it names. -/
def effect : Instruction α → LineState → LineState
  | mfence => id
  | clflush _ | clflushopt _ => .evicted
  | clwb _ => .writtenBack

end Instruction

section Run

variable [DecidableEq ι] (lineOf : α → ι)

/-- One instruction. -/
def step (cache : ι → LineState) (e : Instruction α) : ι → LineState :=
  match e.address with
  | none => cache
  | some a => Function.update cache (lineOf a) (e.effect (cache (lineOf a)))

/-- A sequence of instructions. -/
def run (cache : ι → LineState) (issued : List (Instruction α)) : ι → LineState :=
  issued.foldl (step lineOf) cache

omit [DecidableEq ι] in
/-- Some instruction names an address in the line `x`. -/
def Reaches (issued : List (Instruction α)) (x : ι) : Prop :=
  ∃ e ∈ issued, ∃ a, e.address = some a ∧ lineOf a = x

@[simp] theorem run_nil (cache : ι → LineState) : run lineOf cache [] = cache := rfl

@[simp] theorem run_cons (cache : ι → LineState) (e : Instruction α)
    (issued : List (Instruction α)) :
    run lineOf cache (e :: issued) = run lineOf (step lineOf cache e) issued := rfl

variable {lineOf} {cache : ι → LineState} {e : Instruction α} {issued : List (Instruction α)}
  {x : ι}

theorem step_of_address {a : α} (ha : e.address = some a) (hx : lineOf a = x) :
    step lineOf cache e x = e.effect (cache x) := by
  subst hx
  rw [step, ha]
  exact Function.update_self _ _ _

theorem step_of_ne (h : ∀ a, e.address = some a → lineOf a ≠ x) :
    step lineOf cache e x = cache x := by
  rw [step]
  cases ha : e.address with
  | none => rfl
  | some a => exact Function.update_of_ne (h a ha).symm _ _

/-- **A line that no instruction names** stays as it was. -/
theorem run_of_not_reaches (h : ¬Reaches lineOf issued x) :
    run lineOf cache issued x = cache x := by
  induction issued generalizing cache with
  | nil => rfl
  | cons e issued ih =>
    rw [run_cons, ih fun ⟨e', he', hreach⟩ => h ⟨e', List.mem_cons_of_mem _ he', hreach⟩]
    exact step_of_ne fun a ha hx => h ⟨e, List.mem_cons_self, a, ha, hx⟩

/-- **A line that some instruction names**, where all instructions with an address have the one
effect `f`, and twice `f` is `f`. -/
theorem run_of_reaches {f : LineState → LineState} (hidem : ∀ s, f (f s) = f s)
    (heffect : ∀ e ∈ issued, ∀ a, e.address = some a → e.effect = f)
    (h : Reaches lineOf issued x) : run lineOf cache issued x = f (cache x) := by
  induction issued generalizing cache with
  | nil =>
    obtain ⟨e, he, -⟩ := h
    exact absurd he List.not_mem_nil
  | cons e issued ih =>
    have htail : ∀ e' ∈ issued, ∀ a, e'.address = some a → e'.effect = f :=
      fun e' he' => heffect e' (List.mem_cons_of_mem _ he')
    rw [run_cons]
    -- is the line named again, and does this instruction name it?
    by_cases hagain : Reaches lineOf issued x
    · rw [ih htail hagain]
      by_cases hnow : ∃ a, e.address = some a ∧ lineOf a = x
      · obtain ⟨a, ha, hx⟩ := hnow
        rw [step_of_address ha hx, heffect e List.mem_cons_self a ha, hidem]
      · rw [step_of_ne fun a ha hx => hnow ⟨a, ha, hx⟩]
    · obtain ⟨e', he', a, ha, hx⟩ := h
      rcases List.mem_cons.mp he' with rfl | he'
      · rw [run_of_not_reaches hagain, step_of_address ha hx, heffect _ List.mem_cons_self a ha]
      · exact absurd ⟨e', he', a, ha, hx⟩ hagain

end Run

end CacheLine
