import SlimTemplate.Proofs.Text.Blank
import SlimTemplate.Proofs.Text.Lines

/-!
# Texts without their blanks

Trimming, indenting and breaking a text into lines leave its characters that are not blank as they
are. So a text whose lines were laid out anew can be compared with the text it comes from when the
blanks are left out on both sides.

## Main definitions

* `Text.solid`: a text without its blanks.
* `Text.Inserts`: a text in which a number of copies of one character are inserted.

## Main statements

* `Text.solid_lines`, `Text.solid_unlines`: lines keep what is not blank.
-/

namespace SlimTemplate.Text

/-- A text without its blanks. -/
def solid (text : Text) : Text :=
  text.filter fun c => !isBlank c

@[simp]
theorem solid_nil : solid [] = [] :=
  rfl

@[simp]
theorem solid_append (a b : Text) : solid (a ++ b) = solid a ++ solid b :=
  List.filter_append a b

theorem solid_eq_nil {blanks : Text} (h : ∀ c ∈ blanks, isBlank c = true) : solid blanks = [] := by
  rw [solid, List.filter_eq_nil_iff]
  exact fun c hc => by simp [h c hc]

theorem solid_trimStart (text : Text) : solid (trimStart text) = solid text := by
  have hblanks : solid (text.takeWhile isBlank) = [] := solid_eq_nil fun _ => List.mem_takeWhile_imp
  conv_rhs => rw [← List.takeWhile_append_dropWhile (p := isBlank) (l := text), solid_append,
    hblanks, List.nil_append]
  rfl

theorem solid_cons (c : Char) (text : Text) :
    solid (c :: text) = if isBlank c then solid text else c :: solid text := by
  rw [solid, List.filter_cons]
  cases isBlank c <;> rfl

theorem solid_trimEnd (text : Text) : solid (trimEnd text) = solid text := by
  rw [trimEnd]
  fun_induction dropEndWhile isBlank text with
  | case1 => rfl
  | case2 c text hrest hc ih =>
    rw [hrest] at ih
    rw [solid_cons, if_pos hc, ← ih]
  | case3 c text hrest hc ih =>
    rw [hrest] at ih
    rw [solid_cons, solid_cons, ih]
  | case4 c text hrest ih => rw [solid_cons, solid_cons, ih]

/-- Trimming takes nothing but blanks. -/
@[simp]
theorem solid_trim (text : Text) : solid (trim text) = solid text := by
  rw [trim, solid_trimEnd, solid_trimStart]

@[simp]
theorem solid_dropFinalReturn (line : Text) : solid (dropFinalReturn line) = solid line := by
  rw [← solid_trim, trim_dropFinalReturn, solid_trim]

/-! ## Lines -/

/-- Line feeds are blank. -/
theorem solid_unlines (ls : List Text) : solid (unlines ls) = ls.flatMap solid := by
  induction ls with
  | nil => rfl
  | cons l ls ih =>
    cases ls with
    | nil => simp [unlines, joinWith]
    | cons next ls =>
      rw [unlines_cons (List.cons_ne_nil next ls), solid_append, List.flatMap_cons, ← ih]
      rfl

theorem flatMap_solid_endedLines (ls : List Text) :
    (endedLines ls).flatMap solid = ls.flatMap solid := by
  fun_induction endedLines ls with
  | case1 => rfl
  | case2 last hnil =>
    rw [List.isEmpty_iff.1 hnil]
    rfl
  | case3 => rfl
  | case4 line more _ ih => rw [List.flatMap_cons, List.flatMap_cons, ih, solid_dropFinalReturn]

/-- The lines of a text keep what is not blank. -/
theorem solid_lines (text : Text) : (lines text).flatMap solid = solid text := by
  rw [lines, flatMap_solid_endedLines, ← solid_unlines, unlines_splitOn]

/-! ## Inserted characters -/

/-- The second text is the first one with a number of copies of a character inserted. -/
inductive Inserts (c : Char) : Nat → Text → Text → Prop where
  | nil : Inserts c 0 [] []
  | keep {n : Nat} {a b : Text} (d : Char) (h : Inserts c n a b) : Inserts c n (d :: a) (d :: b)
  | insert {n : Nat} {a b : Text} (h : Inserts c n a b) : Inserts c (n + 1) a (c :: b)

namespace Inserts

variable {c : Char} {m n : Nat} {a b a' b' : Text}

theorem refl (c : Char) (a : Text) : Inserts c 0 a a := by
  induction a with
  | nil => exact nil
  | cons d a ih => exact keep d ih

theorem single (c : Char) (a : Text) : Inserts c 1 a (c :: a) :=
  insert (refl c a)

theorem append (h : Inserts c m a b) (h' : Inserts c n a' b') :
    Inserts c (m + n) (a ++ a') (b ++ b') := by
  induction h with
  | nil => rwa [Nat.zero_add]
  | keep d _ ih => exact keep d ih
  | @insert m a b _ ih =>
    rw [Nat.add_right_comm]
    exact insert ih

theorem length_eq (h : Inserts c n a b) : b.length = a.length + n := by
  induction h with
  | nil => rfl
  | keep d _ ih => rw [List.length_cons, List.length_cons, ih, Nat.add_right_comm]
  | insert _ ih => rw [List.length_cons, ih, Nat.add_assoc]

end Inserts

end SlimTemplate.Text
