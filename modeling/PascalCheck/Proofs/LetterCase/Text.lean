import PascalCheck.Text.Case

/-! # Letter case of ASCII letters

Lower case in every script does not see the case of ASCII letters: a text and the same text with its
ASCII letters in lower case have the same lower case, although a letter may change the shape of the
sigmas around it. -/
namespace PascalCheck
namespace Text

/-- What is asked of the characters of a text is checked on these, not on all characters. -/
instance decidableForallChar (p : Char → Prop) [DecidablePred p] (cs : List Char) :
    Decidable (∀ c ∈ cs, p c) :=
  List.decidableBAll p cs

/-- The letters that ASCII lower case changes. -/
def capitals : List Char :=
  "ABCDEFGHIJKLMNOPQRSTUVWXYZ".toList

/-- Only the capitals of ASCII have another lower case. -/
theorem toLower_eq_or_mem_capitals (c : Char) : c.toLower = c ∨ c ∈ capitals := by
  have hsmall : ∀ code < 128, (Char.ofNat code).toLower = Char.ofNat code ∨
      Char.ofNat code ∈ capitals := by decide
  by_cases h : c.toNat < 128
  · simpa using hsmall c.toNat h
  · refine .inl (dif_neg fun hupper => h ?_)
    have hz : c.toNat ≤ 90 := hupper.2
    omega

/-- A function that does not see the case of the capitals does not see the case of any letter. -/
theorem apply_toLower {α : Type} {f : Char → α} (h : ∀ c ∈ capitals, f c.toLower = f c) (c : Char) :
    f c.toLower = f c := by
  rcases toLower_eq_or_mem_capitals c with hc | hc
  · rw [hc]
  · exact h c hc

/-- Lower case stays as it is. -/
@[simp] theorem toLower_toLower_char (c : Char) : c.toLower.toLower = c.toLower :=
  apply_toLower (by decide) c

@[simp] theorem isCased_toLower (c : Char) : isCased c.toLower = isCased c :=
  apply_toLower (by decide) c

@[simp] theorem isCaseIgnorable_toLower (c : Char) :
    isCaseIgnorable c.toLower = isCaseIgnorable c :=
  apply_toLower (by decide) c

/-- The full mapping of a character does not see the case of an ASCII letter. -/
@[simp] theorem lowerChar_toLower (c : Char) : lowerChar c.toLower = lowerChar c :=
  apply_toLower (by decide) c

/-- A sigma, whose lower case depends on its neighbours, is no ASCII letter. -/
theorem toLower_eq_sigma (c : Char) : (c.toLower = 'Σ') = (c = 'Σ') :=
  propext (decide_eq_decide.mp (apply_toLower (f := fun c => decide (c = 'Σ')) (by decide) c))

/-! ## Texts -/

/-- Whether a cased letter comes next does not depend on the case of ASCII letters. -/
@[simp] theorem facesCased_map_toLower (cs : List Char) :
    facesCased (cs.map Char.toLower) = facesCased cs := by
  induction cs with
  | nil => rfl
  | cons c rest ih =>
    unfold facesCased at ih ⊢
    by_cases h : isCaseIgnorable c = true
    · simpa [h] using ih
    · simp [h]

/-- The full mapping of a text does not see the case of its ASCII letters, nor of those in front of
it. -/
theorem lowerAfter_map_toLower (before cs : List Char) :
    lowerAfter (before.map Char.toLower) (cs.map Char.toLower) = lowerAfter before cs := by
  induction cs generalizing before with
  | nil => rfl
  | cons c rest ih =>
    have hrest := ih (c :: before)
    simp only [List.map_cons] at hrest
    simp [lowerAfter, toLower_eq_sigma, hrest]

@[simp] theorem toList_toLower (text : String) :
    text.toLower.toList = text.toList.map Char.toLower :=
  String.toList_map

/-- **Lower case does not see the case of ASCII letters.** -/
@[simp] theorem lower_toLower (text : String) : lower text.toLower = lower text := by
  have h := lowerAfter_map_toLower [] text.toList
  rw [List.map_nil] at h
  simp [lower, h]

/-- Texts that differ in the case of ASCII letters only are the same in lower case. -/
theorem lower_eq_of_toLower_eq {a b : String} (h : a.toLower = b.toLower) : lower a = lower b := by
  rw [← lower_toLower a, h, lower_toLower]

@[simp] theorem toLower_toLower (text : String) : text.toLower.toLower = text.toLower := by
  simp [← String.toList_inj]

/-- The parts of a text are lowered one by one. -/
@[simp] theorem toLower_append (a b : String) : (a ++ b).toLower = a.toLower ++ b.toLower := by
  simp [← String.toList_inj]

@[simp] theorem toLower_eq_empty {text : String} : text.toLower = "" ↔ text = "" := by
  rw [← String.toList_inj, toList_toLower]
  simp

@[simp] theorem toLower_empty : "".toLower = "" :=
  toLower_eq_empty.mpr rfl

end Text
end PascalCheck
