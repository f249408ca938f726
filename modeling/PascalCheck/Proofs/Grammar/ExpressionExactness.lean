import PascalCheck.Proofs.Grammar.ExpressionReading

/-! What is read without a fault is what the grammar derives: the tokens that a rule of the reader
used are derived from the value that it gives.

The rules are mutually recursive, and so are the theorems, by the same measure.  A loop prolongs the
phrase in front of it, so its theorem starts from a derivation of that phrase. -/
namespace PascalCheck
namespace Grammar

variable {finish : EndMark}

/-- The sign that the tokens begin with, if they do, in front of a term. -/
theorem derives_signed (tokens : List Token) {e : Expr} {ts : List Token}
    (h : Derives (.expr .term e) ts) :
    Derives (.expr .simple (signed (sign? tokens) e))
      (tokens.take (sign? tokens).toList.length ++ ts) := by
  match tokens with
  | [] => exact .simple h
  | t :: rest =>
    by_cases hp : t.kind = .plus
    · simpa [sign?, signed, hp] using Derives.plus hp h
    · by_cases hm : t.kind = .minus
      · simpa [sign?, signed, hm] using Derives.minus hm h
      · simpa [sign?, signed, hp, hm] using Derives.simple h

mutual

theorem derives_expression {tokens : List Token} (h : (expression finish tokens).faults = []) :
    Derives (.expr .expression (expression finish tokens).value)
      (tokens.take (expression finish tokens).used) := by
  rw [expression] at h ⊢
  simp only [Step.andThen_faults, List.append_eq_nil_iff] at h
  have hs := derives_simple h.1
  simpa [List.take_add] using derives_relations (.expression hs) h.2
termination_by 5 * tokens.length + 3
decreasing_by all_goals (try simp only [List.length_drop]); omega

theorem derives_relations {l : Expr} {ls tokens : List Token}
    (hl : Derives (.expr .expression l) ls) (h : (relations finish l tokens).faults = []) :
    Derives (.expr .expression (relations finish l tokens).value)
      (ls ++ tokens.take (relations finish l tokens).used) := by
  match tokens with
  | [] => simpa [relations] using hl
  | op :: rest =>
    by_cases ho : op.kind = .relation
    · rw [relations] at h ⊢
      simp only [ho, if_true, Step.past_faults, Step.andThen_faults, List.append_eq_nil_iff] at h
      have hr := derives_simple h.1
      have hm := derives_relations (.relation hl ho hr) h.2
      simpa [ho, List.take_add] using hm
    · rw [relations]
      simpa [ho] using hl
termination_by 5 * tokens.length
decreasing_by all_goals (try simp only [List.length_drop, List.length_cons]); omega

theorem derives_simple {tokens : List Token} (h : (simple finish tokens).faults = []) :
    Derives (.expr .simple (simple finish tokens).value)
      (tokens.take (simple finish tokens).used) := by
  rw [simple] at h ⊢
  simp only [Step.andThen_faults, Step.past_faults, List.append_eq_nil_iff] at h
  have ht := derives_signed tokens (derives_term h.1)
  simpa [List.take_add] using derives_sums ht h.2
termination_by 5 * tokens.length + 2
decreasing_by all_goals (try simp only [List.length_drop]); omega

theorem derives_sums {l : Expr} {ls tokens : List Token}
    (hl : Derives (.expr .simple l) ls) (h : (sums finish l tokens).faults = []) :
    Derives (.expr .simple (sums finish l tokens).value)
      (ls ++ tokens.take (sums finish l tokens).used) := by
  match tokens with
  | [] => simpa [sums] using hl
  | op :: rest =>
    by_cases ho : isAdding op.kind = true
    · rw [sums] at h ⊢
      simp only [ho, if_true, Step.past_faults, Step.andThen_faults, List.append_eq_nil_iff] at h
      have hr := derives_term h.1
      have hm := derives_sums (.sum hl ho hr) h.2
      simpa [ho, List.take_add] using hm
    · rw [sums]
      simpa [ho] using hl
termination_by 5 * tokens.length
decreasing_by all_goals (try simp only [List.length_drop, List.length_cons]); omega

theorem derives_term {tokens : List Token} (h : (term finish tokens).faults = []) :
    Derives (.expr .term (term finish tokens).value)
      (tokens.take (term finish tokens).used) := by
  rw [term] at h ⊢
  simp only [Step.andThen_faults, List.append_eq_nil_iff] at h
  have hs := derives_factor h.1
  simpa [List.take_add] using derives_products (.term hs) h.2
termination_by 5 * tokens.length + 1
decreasing_by all_goals (try simp only [List.length_drop]); omega

theorem derives_products {l : Expr} {ls tokens : List Token}
    (hl : Derives (.expr .term l) ls) (h : (products finish l tokens).faults = []) :
    Derives (.expr .term (products finish l tokens).value)
      (ls ++ tokens.take (products finish l tokens).used) := by
  match tokens with
  | [] => simpa [products] using hl
  | op :: rest =>
    by_cases ho : isMultiplying op.kind = true
    · rw [products] at h ⊢
      simp only [ho, if_true, Step.past_faults, Step.andThen_faults, List.append_eq_nil_iff] at h
      have hr := derives_factor h.1
      have hm := derives_products (.product hl ho hr) h.2
      simpa [ho, List.take_add] using hm
    · rw [products]
      simpa [ho] using hl
termination_by 5 * tokens.length
decreasing_by all_goals (try simp only [List.length_drop, List.length_cons]); omega

theorem derives_factor {tokens : List Token} (h : (factor finish tokens).faults = []) :
    Derives (.expr .factor (factor finish tokens).value)
      (tokens.take (factor finish tokens).used) := by
  match tokens with
  | [] => simp [factor, refuse] at h
  | t :: rest =>
    rw [factor] at h ⊢
    split at h
    case h_1 ht => simpa [ht] using Derives.integer ht
    case h_2 ht => simpa [ht] using Derives.real ht
    case h_3 ht => simpa [ht] using Derives.string ht
    case h_4 ht => simpa [ht] using Derives.truth (.inl ht)
    case h_5 ht => simpa [ht] using Derives.truth (.inr ht)
    case h_6 ht =>
      split at h
      next hp =>
        simp only [Step.past_faults, Step.as_faults, Step.andThen_faults, List.append_eq_nil_iff,
          Step.past_used] at h
        have hs := derives_arguments h.1
        obtain ⟨opening, inside, ho, rfl⟩ := (startsWith_iff (by decide)).mp hp
        simp only [List.drop_succ_cons, List.drop_zero, drop_one_add] at h hs
        obtain ⟨closing, after, hc, hrest⟩ := expect_of_faultless h.2
        rcases hs with ⟨-, hs⟩ | hs
        · -- No argument was read, so the parenthesis that follows is the next token.
          rw [hs] at hrest
          obtain rfl : inside = closing :: after := hrest
          simpa [hp, hs, expect_cons hc] using Derives.emptyCall ht ho hc
        · simpa [hp, hrest, expect_cons hc, List.take_add] using Derives.call ht ho hs hc
      next hp =>
        split at h
        next hb =>
          simp only [Step.past_faults, Step.as_faults, Step.andThen_faults,
            List.append_eq_nil_iff, Step.past_used] at h
          have hi := derives_expression h.1
          obtain ⟨opening, inside, ho, rfl⟩ := (startsWith_iff (by decide)).mp hb
          simp only [List.drop_succ_cons, List.drop_zero, drop_one_add] at h hi
          obtain ⟨closing, after, hc, hrest⟩ := expect_of_faultless h.2
          simpa [hp, hb, hrest, expect_cons hc, List.take_add] using
            Derives.element ht ho hi hc
        next hb => simpa [hp, hb] using Derives.name ht
    case h_7 ht =>
      have he := derives_factor h
      simpa [ht] using Derives.negation ht he
    case h_8 ht =>
      simp only [Step.past_faults, Step.as_faults, Step.andThen_faults, List.append_eq_nil_iff] at h
      have he := derives_expression h.1
      obtain ⟨closing, after, hc, hrest⟩ := expect_of_faultless h.2
      simpa [ht, hrest, expect_cons hc, List.take_add] using Derives.parentheses ht he hc
    case h_9 => simp [refuse] at h
termination_by 5 * tokens.length
decreasing_by all_goals (try simp only [List.length_drop, List.length_cons]); omega

/-- Arguments are none, before a closing parenthesis, or derived by the grammar. -/
theorem derives_arguments {tokens : List Token} (h : (arguments finish tokens).faults = []) :
    startsWith .rightParen tokens = true ∧ arguments finish tokens = ⟨[], 0, []⟩ ∨
      Derives (.arguments (arguments finish tokens).value)
        (tokens.take (arguments finish tokens).used) := by
  rw [arguments] at h ⊢
  split at h
  next hp => exact .inl ⟨hp, by simp [hp]⟩
  next hp =>
    simp only [Step.as_faults, Step.andThen_faults, List.append_eq_nil_iff] at h
    have he := derives_expression h.1
    have hs := derives_moreArguments he h.2
    exact .inr (by simpa [hp, List.take_add] using hs)
termination_by 5 * tokens.length + 4
decreasing_by all_goals (try simp only [List.length_drop]); omega

theorem derives_moreArguments {e : Expr} {ts tokens : List Token}
    (he : Derives (.expr .expression e) ts) (h : (moreArguments finish tokens).faults = []) :
    Derives (.arguments (e :: (moreArguments finish tokens).value))
      (ts ++ tokens.take (moreArguments finish tokens).used) := by
  match tokens with
  | [] => simpa [moreArguments] using Derives.lastArgument he
  | t :: rest =>
    by_cases hc : t.kind = .comma
    · rw [moreArguments] at h ⊢
      simp only [hc, if_true, Step.past_faults, Step.as_faults, Step.andThen_faults,
        List.append_eq_nil_iff] at h
      have hn := derives_expression h.1
      have hs := derives_moreArguments hn h.2
      simpa [hc, List.take_add] using Derives.argument he hc hs
    · rw [moreArguments]
      simpa [hc] using Derives.lastArgument he
termination_by 5 * tokens.length
decreasing_by all_goals (try simp only [List.length_drop, List.length_cons]); omega

end

/-- **An expression is read without a fault only from tokens that the grammar derives from it.** No
rule uses more tokens than there are, since it would read the same from all of them. -/
theorem expression_of_faultless {tokens : List Token} (h : (expression finish tokens).faults = []) :
    IsExact (expression finish) (fun e => Derives (.expr .expression e)) tokens := by
  have hd := derives_expression h
  by_cases hu : (expression finish tokens).used ≤ tokens.length
  · refine ⟨_, _, tokens.drop (expression finish tokens).used, hd, by simp, ?_⟩
    rw [List.take_append_drop, List.length_take_of_le hu, ← h]
  · -- All tokens are derived from the value, and it is read back from them.
    rw [List.take_of_length_le (by omega)] at hd
    exact ⟨_, _, [], hd, by simp, expression_of_derives hd [] rfl⟩

/-- The arguments behind a first one prolong it to a list. -/
theorem moreArguments_of_faultless {tokens : List Token}
    (h : (moreArguments finish tokens).faults = []) :
    IsExact (moreArguments finish) (fun es ts => ∀ e us, Derives (.expr .expression e) us →
      Derives (.arguments (e :: es)) (us ++ ts)) tokens := by
  generalize hn : tokens.length = n
  induction n using Nat.strongRecOn generalizing tokens with
  | ind n ih =>
    have hend : kindAhead tokens ≠ .comma → IsExact (moreArguments finish) (fun es ts =>
        ∀ e us, Derives (.expr .expression e) us → Derives (.arguments (e :: es)) (us ++ ts))
        tokens := fun hk =>
      ⟨[], [], tokens, fun e us he => by simpa using Derives.lastArgument he, rfl,
        moreArguments_of_end hk⟩
    match tokens with
    | [] => exact hend (by simp)
    | comma :: inside =>
      by_cases hc : comma.kind = .comma
      · rw [moreArguments] at h
        simp only [hc, if_true, Step.past_faults, Step.as_faults, Step.andThen_faults,
          List.append_eq_nil_iff] at h
        obtain ⟨e, ts, after, he, rfl, hs⟩ := expression_of_faultless h.1
        simp only [hs, List.drop_left] at h
        obtain ⟨es, rs, rest, hes, rfl, hr⟩ :=
          ih after.length (by simp at hn; omega) h.2 rfl
        refine ⟨e :: es, comma :: (ts ++ rs), rest, fun e' us he' => ?_, by simp, ?_⟩
        · exact Derives.argument he' hc (hes e ts he)
        · rw [List.cons_append, moreArguments]
          simp [hc, hs, hr, Nat.add_comm]
      · exact hend hc

/-- Arguments are none, before a closing parenthesis, or they are derived by the grammar. -/
theorem arguments_of_faultless {tokens : List Token} (h : (arguments finish tokens).faults = []) :
    startsWith .rightParen tokens = true ∧ arguments finish tokens = ⟨[], 0, []⟩ ∨
      IsExact (arguments finish) (fun es => Derives (.arguments es)) tokens := by
  by_cases hp : startsWith .rightParen tokens = true
  · exact .inl ⟨hp, by rw [arguments]; simp [hp]⟩
  · rw [arguments] at h
    simp only [hp, Bool.false_eq_true, if_false, Step.as_faults, Step.andThen_faults,
      List.append_eq_nil_iff] at h
    obtain ⟨e, ts, after, he, rfl, hs⟩ := expression_of_faultless h.1
    simp only [hs, List.drop_left] at h
    obtain ⟨es, rs, rest, hes, rfl, hr⟩ := moreArguments_of_faultless h.2
    refine .inr ⟨e :: es, ts ++ rs, rest, hes e ts he, by simp, ?_⟩
    rw [List.append_assoc, arguments]
    simp [hp, hs, hr]

end Grammar
end PascalCheck
