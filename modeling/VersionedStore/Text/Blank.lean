/-
  VersionedStore.Text.Blank

  Blank characters and the text between them.  A character is blank if it has
  the Unicode property White_Space: the tab and line controls, the space, the
  next-line control, and the spaces and separators outside ASCII.

  `trim` removes blanks at both ends and nothing else (`exists_trimStart`,
  `exists_trimEnd`).
-/

namespace VersionedStore.Text

/-- The ranges of code points with the property White_Space, both ends included. -/
def blankRanges : List (Nat × Nat) :=
  [(0x09, 0x0d), (0x20, 0x20), (0x85, 0x85), (0xa0, 0xa0), (0x1680, 0x1680), (0x2000, 0x200a),
   (0x2028, 0x2029), (0x202f, 0x202f), (0x205f, 0x205f), (0x3000, 0x3000)]

/-- Whether a character is blank. -/
def isBlank (c : Char) : Bool :=
  blankRanges.any fun r => r.1 ≤ c.toNat && c.toNat ≤ r.2

/-- The characters without the blanks in front. -/
def trimStart (cs : List Char) : List Char :=
  cs.dropWhile isBlank

/-- The characters without the blanks at the end. -/
def trimEnd (cs : List Char) : List Char :=
  (cs.reverse.dropWhile isBlank).reverse

/-- The characters without the blanks at either end. -/
def trim (cs : List Char) : List Char :=
  trimEnd (trimStart cs)

/-- Whether a text holds nothing but blanks. -/
def isBlankText (s : String) : Bool :=
  s.toList.all isBlank

-- ============================================================================
-- Laws
-- ============================================================================

/-- What `trimStart` drops is a run of blanks. -/
theorem exists_trimStart (cs : List Char) :
    ∃ front, (∀ c ∈ front, isBlank c = true) ∧ cs = front ++ trimStart cs := by
  refine ⟨cs.takeWhile isBlank, ?_, (List.takeWhile_append_dropWhile (p := isBlank)).symm⟩
  intro c hc
  exact (List.all_eq_true.1 (List.all_takeWhile (p := isBlank) (l := cs))) c hc

/-- What `trimEnd` drops is a run of blanks. -/
theorem exists_trimEnd (cs : List Char) :
    ∃ back, (∀ c ∈ back, isBlank c = true) ∧ cs = trimEnd cs ++ back := by
  obtain ⟨front, hfront, hcs⟩ := exists_trimStart cs.reverse
  refine ⟨front.reverse, fun c hc => hfront c (List.mem_reverse.1 hc), ?_⟩
  have h := congrArg List.reverse hcs
  rwa [List.reverse_reverse, List.reverse_append] at h

/-- A text without a blank at either end is left alone. -/
theorem trim_eq_self {cs : List Char} (hfirst : ∀ c ∈ cs.head?, isBlank c = false)
    (hlast : ∀ c ∈ cs.getLast?, isBlank c = false) : trim cs = cs := by
  have hstart : trimStart cs = cs := by
    cases cs with
    | nil => rfl
    | cons c rest => simp [trimStart, hfirst c rfl]
  rw [trim, hstart, trimEnd]
  cases h : cs.reverse with
  | nil => simpa using h
  | cons c rest =>
    have hc : isBlank c = false := hlast c (by
      rw [← List.head?_reverse, h]; rfl)
    rw [List.dropWhile_cons_of_neg (by simp [hc]), ← h, List.reverse_reverse]

end VersionedStore.Text
