import KacheDB.Foundation.Dict

/-!
# Remembered results

A computation that may fail is remembered under a key: the first result for a key is kept, and
every later request with this key gets it, whatever its other arguments are.

`get_run` says what is remembered after any requests, and `request_run` what a request gets after
them.
-/

namespace Foundation

namespace Memo

variable {κ α β ε : Type*} [DecidableEq κ] (key : α → κ) (compute : α → Except ε β)

/-- One request: what is remembered, or else the result of the computation, which is remembered
if it has succeeded. -/
def request (memo : Dict κ β) (a : α) : Except ε β × Dict κ β :=
  match memo.get (key a) with
  | some b => (.ok b, memo)
  | none =>
    match compute a with
    | .error e => (.error e, memo)
    | .ok b => (.ok b, memo.set (key a) b)

/-- What is remembered after some requests. -/
def run (memo : Dict κ β) (as : List α) : Dict κ β :=
  as.foldl (fun memo a => (request key compute memo a).2) memo

/-- The result of the first request with this key that succeeds. -/
def first (as : List α) (k : κ) : Option β :=
  as.findSome? fun a => if key a = k then (compute a).toOption else none

variable {key compute}

/-- What is remembered stays. -/
lemma get_request (memo : Dict κ β) (a : α) (k : κ) :
    (request key compute memo a).2.get k =
      (memo.get k).or (if key a = k then (compute a).toOption else none) := by
  unfold request
  cases hget : memo.get (key a) with
  | some b =>
    split_ifs with hkey
    · rw [← hkey, hget]
      rfl
    · rw [Option.or_none]
  | none =>
    cases hcompute : compute a with
    | error e => simp [Except.toOption]
    | ok b =>
      split_ifs with hkey
      · rw [← hkey, hget]
        exact Dict.get_set_self _ _ _
      · rw [Option.or_none]
        exact Dict.get_set_of_ne _ (Ne.symm hkey) _

/-- **The first result is kept.** -/
theorem get_run (memo : Dict κ β) (as : List α) (k : κ) :
    (run key compute memo as).get k = (memo.get k).or (first key compute as k) := by
  induction as generalizing memo with
  | nil => exact (Option.or_none).symm
  | cons a as ih =>
    rw [run, List.foldl_cons, ← run, ih, get_request, Option.or_assoc]
    congr 1
    rw [first, first, List.findSome?_cons]
    cases (if key a = k then (compute a).toOption else none) <;> rfl

/-- What a request gets after some requests. -/
lemma request_run (as : List α) (a : α) :
    (request key compute (run key compute .empty as) a).1 =
      match first key compute as (key a) with
      | some b => .ok b
      | none => compute a := by
  unfold request
  rw [get_run, Dict.get_empty, Option.none_or]
  cases first key compute as (key a) with
  | some b => rfl
  | none => cases compute a <;> rfl

end Memo

end Foundation
