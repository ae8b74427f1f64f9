import Mathlib.Tactic.Common

/-! Commands put to an environment that answers each one from the commands before it,
latest first. `answers` pairs a history with its answers; `play` is a caller that follows
a plan and gives up at the first answer that is not good. -/
namespace AkNano.Attempts

variable {C O : Type}

def answers (answer : List C → C → O) : List C → List C → List (C × O)
  | _, [] => []
  | log, c :: cs => (c,answer log c) :: answers answer (c :: log) cs

def play (answer : List C → C → O) (good : O → Bool) : List C → List C → List C × Option O
  | _, [] => ([],none)
  | log, c :: plan =>
    if good (answer log c) then
      (c :: (play answer good (c :: log) plan).1,(play answer good (c :: log) plan).2)
    else ([c],some (answer log c))

section Answers

variable {answer : List C → C → O} {log : List C}

theorem answersAppend (xs ys : List C) : answers answer log (xs ++ ys) =
    answers answer log xs ++ answers answer (xs.reverse ++ log) ys := by
  induction xs generalizing log with
  | nil => rfl
  | cons x xs ih =>
    rw [List.cons_append,answers,answers,ih,List.cons_append,List.reverse_cons,List.append_assoc]
    rfl

theorem answersCalls (cs : List C) : (answers answer log cs).map Prod.fst = cs := by
  induction cs generalizing log with
  | nil => rfl
  | cons c cs ih => rw [answers,List.map_cons,ih]

theorem answeredCall {cs : List C} {a : C × O} (mem : a ∈ answers answer log cs) : a.1 ∈ cs := by
  have call := List.mem_map_of_mem (f := Prod.fst) mem
  rwa [answersCalls] at call

theorem answersAll (P : O → Prop) (all : ∀ log c, P (answer log c)) (cs : List C) :
    ∀ a ∈ answers answer log cs, P a.2 := by
  induction cs generalizing log with
  | nil => simp [answers]
  | cons c cs ih => exact List.forall_mem_cons.mpr ⟨all log c,ih⟩

end Answers

section Play

variable {answer : List C → C → O} {good : O → Bool} {log : List C} {c : C} {plan : List C}

theorem playNext (done : good (answer log c) = true) : play answer good log (c :: plan) =
    (c :: (play answer good (c :: log) plan).1,(play answer good (c :: log) plan).2) := if_pos done

theorem playStopped (failed : good (answer log c) = false) :
    play answer good log (c :: plan) = ([c],some (answer log c)) := by
  rw [play,failed]
  rfl

theorem playPrefix (log plan : List C) : (play answer good log plan).1 <+: plan := by
  induction plan generalizing log with
  | nil => exact List.prefix_rfl
  | cons c plan ih =>
    cases done : good (answer log c) with
    | true =>
      rw [playNext done]
      exact List.cons_prefix_cons.mpr ⟨rfl,ih _⟩
    | false =>
      rw [playStopped done]
      exact List.cons_prefix_cons.mpr ⟨rfl,List.nil_prefix⟩

theorem playFinished {log plan : List C} : (play answer good log plan).2 = none ↔
    ∀ a ∈ answers answer log (play answer good log plan).1, good a.2 = true := by
  induction plan generalizing log with
  | nil => simp [play,answers]
  | cons c plan ih =>
    cases done : good (answer log c) with
    | true => simp only [playNext done,answers,List.forall_mem_cons,done,true_and,ih]
    | false => simp [playStopped done,answers,done]

theorem playGaveUp {log plan : List C} {o : O} (stop : (play answer good log plan).2 = some o) :
    good o = false := by
  induction plan generalizing log with
  | nil => simp [play] at stop
  | cons c plan ih =>
    cases done : good (answer log c) with
    | true =>
      rw [playNext done] at stop
      exact ih stop
    | false =>
      rw [playStopped done] at stop
      rwa [← Option.some.inj stop]

theorem playFailed {log plan : List C} {a : C × O}
    (mem : a ∈ answers answer log (play answer good log plan).1) (failed : good a.2 = false) :
    (play answer good log plan).2 = some a.2 := by
  induction plan generalizing log with
  | nil => simp [play,answers] at mem
  | cons c plan ih =>
    cases done : good (answer log c) with
    | true =>
      rw [playNext done,answers] at mem
      rw [playNext done]
      rcases List.mem_cons.mp mem with first | later
      · rw [first] at failed
        exact absurd (done.symm.trans failed) (by decide)
      · exact ih later
    | false =>
      rw [playStopped done] at mem ⊢
      rw [List.mem_singleton.mp mem]

end Play

end AkNano.Attempts
