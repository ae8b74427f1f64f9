import Mathlib.Data.List.Induction
import Mathlib.Tactic.Common

/-! Programs that return or are stopped half-way, and histories of such programs.
A state kept by `EStateM` at an exception is what an interruption leaves behind,
so both kinds of end are covered by one two-sided postcondition: returns satisfy
`post`, interruptions `cut`. `Ended` puts both into one relation, with `none` for an
interruption. `Ends` is opaque to unification: its rules are its only interface. -/
namespace AkNano.Interrupted

section Ends

variable {ε σ α β : Type}

@[irreducible] def Ends (p : EStateM ε σ α) (s : σ) (post : α → σ → Prop) (cut : σ → Prop) : Prop :=
  match p s with
  | .ok a t => post a t
  | .error _ t => cut t

variable {p : EStateM ε σ α} {k : α → EStateM ε σ β} {s : σ}

theorem endsPure {a : α} {post : α → σ → Prop} {cut : σ → Prop} (h : post a s) :
    Ends (pure a : EStateM ε σ α) s post cut := by
  unfold Ends
  exact h

theorem endsBind {post : β → σ → Prop} {cut : σ → Prop}
    (h : Ends p s (fun a t => Ends (k a) t post cut) cut) : Ends (p >>= k) s post cut := by
  unfold Ends at h ⊢
  simp only [bind,EStateM.bind]
  cases e : p s with
  | ok a t => simpa only [e] using h
  | error _ t => simpa only [e] using h

theorem endsGet {k : σ → EStateM ε σ β} {post : β → σ → Prop} {cut : σ → Prop}
    (h : Ends (k s) s post cut) : Ends (get >>= k) s post cut := by
  apply endsBind
  unfold Ends at h ⊢
  exact h

theorem endsModify {f : σ → σ} {k : PUnit → EStateM ε σ β} {post : β → σ → Prop} {cut : σ → Prop}
    (h : Ends (k ⟨⟩) (f s) post cut) : Ends (modify f >>= k) s post cut := by
  apply endsBind
  unfold Ends at h ⊢
  exact h

theorem endsMono {post post' : α → σ → Prop} {cut cut' : σ → Prop} (h : Ends p s post cut)
    (returned : ∀ a t, post a t → post' a t) (stopped : ∀ t, cut t → cut' t) :
    Ends p s post' cut' := by
  unfold Ends at h ⊢
  cases e : p s with
  | ok a t => simp only [e] at h; exact returned a t h
  | error _ t => simp only [e] at h; exact stopped t h

theorem endsThen {mid : α → σ → Prop} {post : β → σ → Prop} {cut cut' : σ → Prop}
    (h : Ends p s mid cut') (next : ∀ a t, mid a t → Ends (k a) t post cut)
    (stopped : ∀ t, cut' t → cut t) : Ends (p >>= k) s post cut :=
  endsBind (endsMono h next stopped)

theorem endsBoth {post post' : α → σ → Prop} {cut cut' : σ → Prop} (h : Ends p s post cut)
    (h' : Ends p s post' cut') :
    Ends p s (fun a t => post a t ∧ post' a t) (fun t => cut t ∧ cut' t) := by
  unfold Ends at h h' ⊢
  cases e : p s with
  | ok a t => simp only [e] at h h'; exact ⟨h,h'⟩
  | error _ t => simp only [e] at h h'; exact ⟨h,h'⟩

theorem endsReturned {post : α → σ → Prop} {cut : σ → Prop} (h : Ends p s post cut)
    {a : α} {t : σ} (run : p s = .ok a t) : post a t := by
  simpa only [Ends,run] using h

theorem endsStopped {post : α → σ → Prop} {cut : σ → Prop} (h : Ends p s post cut)
    {e : ε} {t : σ} (run : p s = .error e t) : cut t := by
  simpa only [Ends,run] using h

def Ended (p : EStateM ε σ α) (s : σ) (R : Option α → σ → Prop) : Prop :=
  Ends p s (fun a t => R (some a) t) (R none)

theorem endedThen {R : Option α → σ → Prop} {R' : Option β → σ → Prop} (h : Ended p s R)
    (next : ∀ a t, R (some a) t → Ended (k a) t R') (stopped : ∀ t, R none t → R' none t) :
    Ended (p >>= k) s R' := endsThen h next stopped

theorem endedMono {R R' : Option α → σ → Prop} (h : Ended p s R)
    (weaker : ∀ o t, R o t → R' o t) : Ended p s R' :=
  endsMono h (fun a t => weaker (some a) t) (fun t => weaker none t)

theorem endedReturned {R : Option α → σ → Prop} (h : Ended p s R) {a : α} {t : σ}
    (run : p s = .ok a t) : R (some a) t := endsReturned h run

theorem endedStopped {R : Option α → σ → Prop} (h : Ended p s R) {e : ε} {t : σ}
    (run : p s = .error e t) : R none t := endsStopped h run

theorem endsTotal {post : α → σ → Prop} (h : Ends p s post (fun _ => False)) :
    ∃ a t, p s = .ok a t ∧ post a t := by
  unfold Ends at h
  cases e : p s with
  | ok a t => simp only [e] at h; exact ⟨a,t,rfl,h⟩
  | error _ t => simp only [e] at h

theorem returnedThen {a : α} {t : σ} (run : p s = .ok a t) : (p >>= k) s = k a t := by
  simp only [bind,EStateM.bind,run]

def leaves (p : EStateM ε σ α) (s : σ) : σ :=
  match p s with
  | .ok _ t => t
  | .error _ t => t

def ending (p : EStateM ε σ α) (s : σ) : Option α :=
  match p s with
  | .ok a _ => some a
  | .error _ _ => none

theorem endedLeaves {R : Option α → σ → Prop} (h : Ended p s R) : R (ending p s) (leaves p s) := by
  unfold ending leaves
  cases e : p s with
  | ok a t => exact endedReturned h e
  | error _ t => exact endedStopped h e

theorem endingReturned {a : α} (h : ending p s = some a) : p s = .ok a (leaves p s) := by
  unfold ending at h
  unfold leaves
  cases e : p s with
  | ok b t =>
    simp only [e,Option.some.injEq] at h
    rw [h]
  | error _ t => simp [e] at h

theorem endedAlways {R : Option α → σ → Prop} (h : Ended p s R) {a : α}
    (always : ∀ o t, R o t → o = some a) : ∃ t, p s = .ok a t ∧ R (some a) t := by
  have left := endedLeaves h
  have done := always _ _ left
  rw [done] at left
  exact ⟨_,endingReturned done,left⟩

theorem endingOk {a : α} {t : σ} (run : p s = .ok a t) : ending p s = some a := by
  simp only [ending,run]

theorem leavesReturned {a : α} {t : σ} (run : p s = .ok a t) : leaves p s = t := by
  simp only [leaves,run]

end Ends

section Histories

variable {σ ε : Type} {step : σ → ε → σ → Prop}

inductive Steps (step : σ → ε → σ → Prop) : σ → List ε → σ → Prop where
  | nil (s) : Steps step s [] s
  | snoc {s u t es e} (run : Steps step s es u) (last : step u e t) :
      Steps step s (es ++ [e]) t

theorem stepsAppend {s es t fs u} (first : Steps step s es t) (second : Steps step t fs u) :
    Steps step s (es ++ fs) u := by
  induction second with
  | nil => rwa [List.append_nil]
  | snoc _ last ih =>
    rw [← List.append_assoc]
    exact .snoc ih last

theorem stepsLast {s es e t} (run : Steps step s (es ++ [e]) t) :
    ∃ u, Steps step s es u ∧ step u e t := by
  generalize whole : es ++ [e] = gs at run
  cases run with
  | nil => simp at whole
  | snoc run last =>
    obtain ⟨same,one⟩ := List.append_inj' whole rfl
    cases one
    subst same
    exact ⟨_,run,last⟩

theorem stepsSplit {s es fs t} (run : Steps step s (es ++ fs) t) :
    ∃ u, Steps step s es u ∧ Steps step u fs t := by
  induction fs using List.reverseRecOn generalizing t with
  | nil => exact ⟨t,by rwa [List.append_nil] at run,.nil t⟩
  | append_singleton fs f ih =>
    rw [← List.append_assoc] at run
    obtain ⟨w,before,last⟩ := stepsLast run
    obtain ⟨u,first,rest⟩ := ih before
    exact ⟨u,first,.snoc rest last⟩

theorem stepsCut {s es e fs t} (run : Steps step s (es ++ e :: fs) t) :
    ∃ u v, Steps step s es u ∧ step u e v ∧ Steps step v fs t := by
  rw [List.append_cons] at run
  obtain ⟨v,before,rest⟩ := stepsSplit run
  obtain ⟨u,first,middle⟩ := stepsLast before
  exact ⟨u,v,first,middle,rest⟩

theorem stepsInvariant (I : σ → Prop) (keep : ∀ s e t, I s → step s e t → I t)
    {s es t} (run : Steps step s es t) (start : I s) : I t := by
  induction run with
  | nil => exact start
  | snoc _ last ih => exact keep _ _ _ ih last

theorem stepsInvariantAmong (allowed : ε → Prop) (I : σ → Prop)
    (keep : ∀ s e t, allowed e → I s → step s e t → I t) {s es t}
    (run : Steps step s es t) (labels : ∀ e ∈ es, allowed e) (start : I s) : I t := by
  induction run with
  | nil => exact start
  | snoc run last ih =>
    have before := ih (fun e mem => labels e (by simp [mem]))
    exact keep _ _ _ (labels _ (by simp)) before last

theorem stepsSimulated {τ δ : Type} {step' : τ → δ → τ → Prop} (view : σ → τ) (label : ε → δ)
    {I : σ → Prop} (keep : ∀ s e t, I s → step s e t → I t)
    (matched : ∀ s e t, I s → step s e t → step' (view s) (label e) (view t)) {s es t}
    (run : Steps step s es t) (start : I s) : Steps step' (view s) (es.map label) (view t) := by
  induction run with
  | nil => exact .nil _
  | snoc run last ih =>
    have between := stepsInvariant I keep run start
    rw [List.map_append]
    exact .snoc ih (matched _ _ _ between last)

end Histories

end AkNano.Interrupted
