import Mathlib.Data.List.Infix

/-!
# Pages formatted by `format!`

The example's pages are multi-line string literals with values spliced in by `format!`.
A template is written here line by line (`lines`), each line after the first with the
indentation the literal carries (`line`). `format!` escapes nothing: a page `shows` each
value it was given as it is, and `shows_lines` finds a value in the line that holds it.
-/

namespace OxideAuth

/-- A line of a template after the first: a line break, the `n` spaces the source indents
it by, the text. -/
def line (n : Nat) (text : String) : String :=
  ⟨'\n' :: List.replicate n ' '⟩ ++ text

/-- A template: its lines, one after another. -/
def lines : List String → String
  | [] => ""
  | l :: ls => l ++ lines ls

/-- `page` shows `text` as it is: the characters of `text` stand in `page` one after
another. -/
def shows (page text : String) : Prop := text.data <:+: page.data

instance (page text : String) : Decidable (shows page text) :=
  inferInstanceAs (Decidable (text.data <:+: page.data))

theorem shows.trans {a b c : String} (hab : shows a b) (hbc : shows b c) : shows a c :=
  List.IsInfix.trans hbc hab

theorem shows_middle (pre text post : String) : shows (pre ++ text ++ post) text := by
  simp [shows, List.infix_append]

theorem shows_line (n : Nat) (text : String) : shows (line n text) text := by
  simpa using shows_middle ⟨'\n' :: List.replicate n ' '⟩ text ""

/-- A template shows each of its lines. -/
theorem shows_lines {ls : List String} {l : String} (h : l ∈ ls) : shows (lines ls) l := by
  induction ls with
  | nil => cases h
  | cons l' ls ih =>
    rcases List.mem_cons.1 h with rfl | h
    · simpa using shows_middle "" l (lines ls)
    · exact List.IsInfix.trans (ih h) (List.suffix_append l'.data (lines ls).data).isInfix

end OxideAuth
