/-! Blank characters and the two ways text is stripped of them. The class is the
White_Space property of Unicode, which is larger than the ASCII blanks. A text is
a list of characters; a word is a maximal run of characters that are not blank. -/
namespace OledPanel.Text

/-- The first and last code points of each run of the White_Space property. -/
def blankRuns : List (Nat × Nat) :=
  [(0x09, 0x0D), (0x20, 0x20), (0x85, 0x85), (0xA0, 0xA0), (0x1680, 0x1680), (0x2000, 0x200A),
    (0x2028, 0x2029), (0x202F, 0x202F), (0x205F, 0x205F), (0x3000, 0x3000)]

def isBlank (c : Char) : Bool :=
  blankRuns.any fun r => r.1 ≤ c.toNat && c.toNat ≤ r.2

/-- Every blank of the ASCII class is blank. -/
theorem isBlank_of_isWhitespace {c : Char} (h : c.isWhitespace = true) : isBlank c = true := by
  simp only [Char.isWhitespace, Bool.or_eq_true, decide_eq_true_eq] at h
  rcases h with ((h | h) | h) | h <;> subst h <;> rfl

def trimLeft (cs : List Char) : List Char := cs.dropWhile isBlank

def trimRight (cs : List Char) : List Char := (trimLeft cs.reverse).reverse

/-- Blanks at both ends go, blanks inside stay. -/
def trim (cs : List Char) : List Char := trimRight (trimLeft cs)

/-- One character put in front of words that may continue it: a blank closes the
first word, any other character extends it. -/
def extend (c : Char) : List (List Char) → List (List Char)
  | [] => if isBlank c then [[]] else [[c]]
  | w :: ws => if isBlank c then [] :: w :: ws else (c :: w) :: ws

/-- The words of a text in order; no word is empty. -/
def words (cs : List Char) : List (List Char) :=
  (cs.foldr extend [[]]).filter fun w => !w.isEmpty

/-- The text before and after the first occurrence of a character, if there is one. -/
def cut (c : Char) : List Char → Option (List Char × List Char)
  | [] => none
  | x :: xs => if x = c then some ([], xs) else (cut c xs).map fun p => (x :: p.1, p.2)

theorem cut_eq_some {c : Char} {cs l r : List Char} (h : cut c cs = some (l, r)) :
    cs = l ++ c :: r ∧ c ∉ l := by
  induction cs generalizing l with
  | nil => simp [cut] at h
  | cons x xs ih =>
    by_cases hx : x = c
    · simp only [cut, hx, if_true, Option.some.injEq, Prod.mk.injEq] at h
      obtain ⟨rfl, rfl⟩ := h
      simp [hx]
    · simp only [cut, hx, if_false, Option.map_eq_some_iff] at h
      obtain ⟨⟨a, b⟩, hab, hp⟩ := h
      simp only [Prod.mk.injEq] at hp
      obtain ⟨rfl, rfl⟩ := hp
      obtain ⟨rfl, hn⟩ := ih hab
      exact ⟨rfl, by simp [hn, Ne.symm hx]⟩

end OledPanel.Text
