import TextScan.Text.Basic

namespace TextScan.Text

def lines : Text → List Text
  | [] => [[]]
  | c :: t =>
    if c = '\n' then [] :: lines t
    else match lines t with
      | l :: ls => (c :: l) :: ls
      | [] => [[c]]

theorem lines_ne_nil (t : Text) : lines t ≠ [] := by
  fun_induction lines t <;> simp_all

@[simp] theorem lines_newline (t : Text) : lines ('\n' :: t) = [] :: lines t := by
  simp [lines]

theorem length_lines (t : Text) : (lines t).length = t.count '\n' + 1 := by
  fun_induction lines t with
  | case1 => rfl
  | case2 t ih => simp [ih]
  | case3 c t hc l ls hl ih => simp_all
  | case4 c t hc hl => exact absurd hl (lines_ne_nil t)

def chomp (line : Text) : Text :=
  if line.getLast? = some '\r' then line.dropLast else line

end TextScan.Text
