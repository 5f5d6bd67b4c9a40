import Mathlib.Data.List.Induction

/-! Calls in the order in which they were made, and what the latest of them say. Some calls make all before
them forgotten; behind the last such call the latest word on a matter counts. Both notions are told call
by call: one more call is forgotten with all others, or it comes in front of them. So is what holds of a
part and the calls that have been made of it. -/
namespace Harvard16

variable {α β : Type}

/-- What holds of a part that no call has been made of, and is kept by one more call, holds after any calls. -/
theorem calls_induction {act : β → α → β} {first : β} {P : β → List α → Prop} (start : P first [])
    (step : ∀ part calls call, P part calls → P (act part call) (calls ++ [call])) (calls : List α) :
    P (calls.foldl act first) calls := by
  induction calls using List.reverseRecOn with
  | nil => exact start
  | append_singleton calls call ih =>
    rw [List.foldl_append]
    exact step _ calls call ih

def recent (forgets : α → Bool) (calls : List α) : List α := calls.reverse.takeWhile (!forgets ·)

/-- What the latest call that says anything on a matter says, unless that is forgotten. -/
def latest? (forgets : α → Bool) (says? : α → Option β) (calls : List α) : Option β :=
  (recent forgets calls).findSome? says?

theorem recent_append (forgets : α → Bool) (calls : List α) (call : α) :
    recent forgets (calls ++ [call]) = if forgets call then [] else call :: recent forgets calls := by
  rw [recent, List.reverse_append, List.reverse_singleton, List.singleton_append, List.takeWhile_cons]
  cases forgets call <;> rfl

theorem latest?_append (forgets : α → Bool) (says? : α → Option β) (calls : List α) (call : α) :
    latest? forgets says? (calls ++ [call]) =
      if forgets call then none else (says? call).or (latest? forgets says? calls) := by
  rw [latest?, recent_append]
  cases forgets call with
  | true => rfl
  | false =>
    rw [if_neg Bool.false_ne_true, if_neg Bool.false_ne_true, List.findSome?_cons]
    cases says? call <;> rfl

end Harvard16
