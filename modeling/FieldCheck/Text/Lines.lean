/-
FieldCheck.Text.Lines — line ends.

A line ends with a line feed, a carriage return or both together. `unified`
writes all three as a line feed.
-/

namespace FieldCheck.Text

/-- The text with a line feed at the end of every line; `done` holds what is
read already, last first. -/
def unifiedOnto (done : List Char) : List Char → List Char
  | '\r' :: '\n' :: rest => unifiedOnto ('\n' :: done) rest
  | '\r' :: rest => unifiedOnto ('\n' :: done) rest
  | c :: rest => unifiedOnto (c :: done) rest
  | [] => done.reverse

/-- The text with a line feed at the end of every line. -/
def unified (cs : List Char) : List Char := unifiedOnto [] cs

/-- What holds of line ends holds of all characters when line ends are unified
if it did before. -/
theorem forall_mem_unifiedOnto_iff {P : Char → Prop} (hfeed : P '\n') (hreturn : P '\r')
    (done cs : List Char) :
    (∀ c ∈ unifiedOnto done cs, P c) ↔ (∀ c ∈ done, P c) ∧ ∀ c ∈ cs, P c := by
  fun_induction unifiedOnto done cs with
  | case1 done rest ih => simp [ih, hfeed, hreturn]
  | case2 done rest _ ih => simp [ih, hfeed, hreturn]
  | case3 done c rest _ _ ih =>
    rw [ih, List.forall_mem_cons, List.forall_mem_cons, and_assoc, and_left_comm]
  | case4 done => simp

end FieldCheck.Text
