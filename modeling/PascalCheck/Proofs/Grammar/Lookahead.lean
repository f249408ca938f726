import PascalCheck.Grammar.Step

/-! The next token and the steps that look at it. -/
namespace PascalCheck

namespace Step
variable {α β : Type}

@[simp] theorem mk_andThen (a : α) (n : Nat) (b : Step β) :
    (⟨a, n, []⟩ : Step α).andThen b = b.past n := rfl

theorem mk_andThen_mk (a : α) (b : β) (m n : Nat) (faults faults' : List GrammarFault) :
    (⟨a, m, faults⟩ : Step α).andThen ⟨b, n, faults'⟩ = ⟨b, m + n, faults ++ faults'⟩ := rfl

@[simp] theorem mk_past (a : α) (m n : Nat) (faults : List GrammarFault) :
    (⟨a, m, faults⟩ : Step α).past n = ⟨a, n + m, faults⟩ := rfl

@[simp] theorem mk_as (a : α) (b : β) (n : Nat) (faults : List GrammarFault) :
    (⟨a, n, faults⟩ : Step α).as b = ⟨b, n, faults⟩ := rfl

@[simp] theorem past_past (a : Step α) (m n : Nat) : (a.past m).past n = a.past (n + m) := by
  simp [past, Nat.add_assoc]

@[simp] theorem past_as (a : Step α) (n : Nat) (b : β) : (a.past n).as b = (a.as b).past n := rfl

@[simp] theorem past_andThen (a : Step α) (n : Nat) (b : Step β) :
    (a.past n).andThen b = (a.andThen b).past n := by
  simp [past, andThen, Nat.add_assoc]

/-- A step is known from what it is behind one more token. -/
theorem eq_of_past_one {a : Step α} {v : α} {n : Nat} {faults : List GrammarFault}
    (h : a.past 1 = ⟨v, n + 1, faults⟩) : a = ⟨v, n, faults⟩ := by
  cases a
  simpa [past, Nat.add_comm] using h

end Step

namespace Grammar

/-- The kind of the next token. -/
def kindAhead : List Token → TokenKind
  | [] => .endOfInput
  | t :: _ => t.kind

@[simp] theorem kindAhead_nil : kindAhead [] = .endOfInput := rfl

@[simp] theorem kindAhead_cons (t : Token) (rest : List Token) :
    kindAhead (t :: rest) = t.kind := rfl

/-- What a text of tokens starts with is the kind that is ahead. -/
theorem startsWith_eq (kind : TokenKind) (tokens : List Token) :
    startsWith kind tokens = decide (kindAhead tokens = kind) := by
  cases tokens with
  | nil => simp [startsWith, eq_comm]
  | cons t rest => rfl

/-- A kind that is ahead is that of a first token, unless it marks the end. -/
theorem cons_of_kindAhead {kind : TokenKind} (hk : kind ≠ .endOfInput) {tokens : List Token}
    (h : kindAhead tokens = kind) : ∃ t rest, t.kind = kind ∧ tokens = t :: rest := by
  cases tokens with
  | nil => exact absurd h.symm hk
  | cons t rest => exact ⟨t, rest, h, rfl⟩

theorem startsWith_iff {kind : TokenKind} (hk : kind ≠ .endOfInput) {tokens : List Token} :
    startsWith kind tokens = true ↔ ∃ t rest, t.kind = kind ∧ tokens = t :: rest := by
  cases tokens with
  | nil => simp [startsWith, hk]
  | cons t rest => simp [startsWith]

/-! Counts of used tokens put the first token in front. -/

@[simp] theorem drop_one_add (t : Token) (rest : List Token) (n : Nat) :
    (t :: rest).drop (1 + n) = rest.drop n := by
  rw [Nat.add_comm, List.drop_succ_cons]

@[simp] theorem drop_two_add (t u : Token) (rest : List Token) (n : Nat) :
    (t :: u :: rest).drop (2 + n) = rest.drop n := by
  rw [Nat.add_comm, List.drop_succ_cons, List.drop_succ_cons]

@[simp] theorem take_one_add (t : Token) (rest : List Token) (n : Nat) :
    (t :: rest).take (1 + n) = t :: rest.take n := by
  rw [Nat.add_comm, List.take_succ_cons]

/-- What a rule reads is derived from its value, and the other tokens are left. -/
def IsExact {α : Type} (rule : List Token → Step α) (derives : α → List Token → Prop)
    (tokens : List Token) : Prop :=
  ∃ a ts rest, derives a ts ∧ tokens = ts ++ rest ∧ rule (ts ++ rest) = ⟨a, ts.length, []⟩

/-- A rule that is exact for one phrase is exact for a wider one. -/
theorem IsExact.mono {α : Type} {rule : List Token → Step α}
    {derives derives' : α → List Token → Prop}
    {tokens : List Token} (h : IsExact rule derives tokens)
    (himp : ∀ a ts, derives a ts → derives' a ts) : IsExact rule derives' tokens := by
  obtain ⟨a, ts, rest, ha, ht, hs⟩ := h
  exact ⟨a, ts, rest, himp a ts ha, ht, hs⟩

/-- What a rule reads is derived from its value, unless the tokens are at their end behind it. -/
def IsExactBeforeEnd {α : Type} (rule : List Token → Step α) (derives : α → List Token → Prop)
    (tokens : List Token) : Prop :=
  IsExact rule derives tokens ∨ kindAhead (tokens.drop (rule tokens).used) = .endOfInput

theorem IsExactBeforeEnd.mono {α : Type} {rule : List Token → Step α}
    {derives derives' : α → List Token → Prop} {tokens : List Token}
    (h : IsExactBeforeEnd rule derives tokens) (himp : ∀ a ts, derives a ts → derives' a ts) :
    IsExactBeforeEnd rule derives' tokens :=
  h.imp_left fun h => h.mono himp

variable {finish : EndMark}

/-- What is ahead is accepted, and one token is used. -/
theorem accept_cons {kind : TokenKind} {t : Token} (h : t.kind = kind) (rest : List Token) :
    accept kind (t :: rest) = ⟨true, 1, []⟩ :=
  if_pos h

/-- What is not ahead is left alone, without a fault. -/
theorem accept_of_ne {kind : TokenKind} {tokens : List Token} (h : kindAhead tokens ≠ kind) :
    accept kind tokens = ⟨false, 0, []⟩ := by
  cases tokens with
  | nil => rfl
  | cons t rest => exact if_neg h

/-- What is ahead is found where it is expected. -/
theorem expect_cons {kind : TokenKind} {t : Token} (h : t.kind = kind) (rest : List Token) :
    expect finish kind (t :: rest) = ⟨some t, 1, []⟩ := by
  simp [expect, h]

/-- A token that is expected and found is the next one. -/
theorem expect_of_faultless {kind : TokenKind} {tokens : List Token}
    (h : (expect finish kind tokens).faults = []) :
    ∃ t rest, t.kind = kind ∧ tokens = t :: rest := by
  cases tokens with
  | nil => simp [expect, refuse] at h
  | cons t rest =>
    by_cases ht : t.kind = kind
    · exact ⟨t, rest, ht, rfl⟩
    · simp [expect, ht, refuse] at h

/-- No token is expected and found at the end of the tokens. -/
theorem IsExactBeforeEnd.of_expect {α : Type} {rule : List Token → Step α}
    {derives : α → List Token → Prop} {tokens : List Token}
    (h : IsExactBeforeEnd rule derives tokens) {kind : TokenKind} (hk : kind ≠ .endOfInput)
    (he : (expect finish kind (tokens.drop (rule tokens).used)).faults = []) :
    IsExact rule derives tokens := by
  obtain h | hend := h
  · exact h
  · obtain ⟨t, rest, ht, hd⟩ := expect_of_faultless he
    rw [hd, kindAhead_cons, ht] at hend
    exact absurd hend hk

/-- The tokens in front of the first one that fails a test. -/
theorem exists_takeWhile (p : Token → Bool) (tokens : List Token) :
    ∃ ts rest, (∀ t ∈ ts, p t = true) ∧ tokens = ts ++ rest ∧ (ts ++ rest).takeWhile p = ts ∧
      ∀ t after, rest = t :: after → p t = false := by
  induction tokens with
  | nil => exact ⟨[], [], by simp, rfl, rfl, by simp⟩
  | cons t tokens ih =>
    obtain ⟨ts, rest, hts, rfl, hw, hrest⟩ := ih
    by_cases ht : p t = true
    · refine ⟨t :: ts, rest, by simpa [ht] using hts, rfl, ?_, hrest⟩
      rw [List.cons_append, List.takeWhile_cons_of_pos ht, hw]
    · exact ⟨[], t :: (ts ++ rest), by simp, rfl, by simp [ht], by simpa using ht⟩

end Grammar
end PascalCheck
