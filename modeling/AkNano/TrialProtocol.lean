import AkNano.Interrupted

/-! Updates with a trial boot, for any two copies that `other` swaps. One copy runs. A
writer who has been invited rewrites the other copy, which is then asked for; a restart
runs the copy asked for on trial, a resumption the same copy, and confirmation settles it.
No writer is invited during a trial, so that the copy to fall back on stays as it was. -/
namespace AkNano.TrialProtocol
open Interrupted

structure Copies (S : Type) where
  running : S
  onTrial : Bool
  asked : Bool
  invited : Bool

inductive Move where
  | look | invite | write | ask | confirm | resume | restart
  deriving DecidableEq, Repr

/-- What is left in a copy that was written, or no longer runs, may well ask for it. -/
inductive Moves {S : Type} (other : S → S) : Copies S → Move → Copies S → Prop where
  | look (c) : Moves other c .look c
  | invite (c) : Moves other c .invite {c with invited := c.invited || !c.onTrial}
  | write {c} (invited : c.invited = true) (asked) : Moves other c .write {c with asked := asked}
  | ask (c) : Moves other c .ask {c with asked := true}
  | confirm (c) : Moves other c .confirm {c with onTrial := false}
  | resume (c) : Moves other c .resume {c with invited := false}
  | restart {c} (asked : c.asked = true) (again) :
      Moves other c .restart ⟨other c.running,true,again,false⟩

section Runs

variable {S : Type} {other : S → S} {c c' : Copies S} {ms : List Move}

def Guarded (c : Copies S) : Prop := c.onTrial = true → c.invited = false

theorem movesGuarded {m : Move} (guarded : Guarded c) (move : Moves other c m c') : Guarded c' := by
  cases move with
  | look => exact guarded
  | invite =>
    intro trial
    change (c.invited || !c.onTrial) = false
    have held : c.onTrial = true := trial
    rw [guarded trial,held]
    rfl
  | write invited asked => exact guarded
  | ask => exact guarded
  | confirm => intro trial; contradiction
  | resume => exact fun _ => rfl
  | restart asked again => exact fun _ => rfl

theorem runGuarded (run : Steps (Moves other) c ms c') (guarded : Guarded c) : Guarded c' :=
  stepsInvariant Guarded (fun _ _ _ kept move => movesGuarded kept move) run guarded

theorem trialLasts {m : Move} (unconfirmed : m ≠ .confirm) (trial : c.onTrial = true)
    (move : Moves other c m c') : c'.onTrial = true := by
  cases move with
  | look => exact trial
  | invite => exact trial
  | write invited asked => exact trial
  | ask => exact trial
  | confirm => exact absurd rfl unconfirmed
  | resume => exact trial
  | restart asked again => rfl

theorem noWriteOnTrial (run : Steps (Moves other) c ms c') (guarded : Guarded c)
    (trial : c.onTrial = true) (unconfirmed : .confirm ∉ ms) : .write ∉ ms := by
  induction run with
  | nil => exact List.not_mem_nil
  | @snoc u t ms m run last ih =>
    rw [List.mem_append,not_or,List.mem_singleton] at unconfirmed
    have held : u.onTrial = true :=
      stepsInvariantAmong (fun m => m ≠ .confirm) (fun c => c.onTrial = true)
        (fun _ _ _ open' kept move => trialLasts open' kept move) run
        (fun m mem same => unconfirmed.1 (same ▸ mem)) trial
    have closed := runGuarded run guarded held
    rw [List.mem_append,not_or,List.mem_singleton]
    refine ⟨ih unconfirmed.1,?_⟩
    intro write
    subst write
    cases last with
    | write invited asked =>
      rw [closed] at invited
      contradiction

end Runs

end AkNano.TrialProtocol
