import PascalCheck.Proofs.Grammar.Lookahead

/-! Items with separators between them, and such lists in parentheses.

The reader has a rule for each kind of list.  Each of them goes on after a separator in the same way
(`IsLoop`), and looks for the parentheses in the same way (`parenthesized`), so that lists are read
back, and read exactly, for all kinds at once. -/
namespace PascalCheck
namespace Grammar
variable {α β γ : Type}

/-- Items with separators of one kind between them. -/
inductive Separated (kind : TokenKind) (item : β → List Token → Prop) :
    List β → List Token → Prop where
  | single {b : β} {ts : List Token} (hb : item b ts) : Separated kind item [b] ts
  | cons {b : β} {bs : List β} {separator : Token} {ts rs : List Token} (hb : item b ts)
      (hs : separator.kind = kind) (hbs : Separated kind item bs rs) :
      Separated kind item (b :: bs) (ts ++ separator :: rs)

/-- A list in parentheses, which may be left out where the list is empty. -/
inductive Parenthesized (list : List β → List Token → Prop) : List β → List Token → Prop where
  | none : Parenthesized list [] []
  | empty {opening closing : Token} (ho : opening.kind = .leftParen)
      (hc : closing.kind = .rightParen) : Parenthesized list [] [opening, closing]
  | list {opening closing : Token} {bs : List β} {ts : List Token}
      (ho : opening.kind = .leftParen) (hbs : list bs ts) (hc : closing.kind = .rightParen) :
      Parenthesized list bs (opening :: (ts ++ [closing]))

theorem Separated.map {kind : TokenKind} {item : α → List Token → Prop}
    {item' : β → List Token → Prop} {as : List α} {ts : List Token} (f : α → β)
    (h : Separated kind item as ts) (hf : ∀ a ts, item a ts → item' (f a) ts) :
    Separated kind item' (as.map f) ts := by
  induction h with
  | single ha => exact .single (hf _ _ ha)
  | cons ha hs _ ih => exact .cons (hf _ _ ha) hs ih

theorem Parenthesized.map {list : List α → List Token → Prop} {list' : List β → List Token → Prop}
    {as : List α} {ts : List Token} (f : α → β) (h : Parenthesized list as ts)
    (hf : ∀ as ts, list as ts → list' (as.map f) ts) : Parenthesized list' (as.map f) ts := by
  cases h with
  | none => exact .none
  | empty ho hc => exact .empty ho hc
  | list ho has hc => exact .list ho (hf _ _ has) hc

theorem Separated.exists_of_mem {kind : TokenKind} {item : β → List Token → Prop} {b : β}
    {bs : List β} {ts : List Token} (h : Separated kind item bs ts) (hb : b ∈ bs) :
    ∃ us, item b us := by
  induction h with
  | single hitem =>
    obtain rfl := List.mem_singleton.mp hb
    exact ⟨_, hitem⟩
  | cons hitem _ _ ih =>
    rcases List.mem_cons.mp hb with rfl | hrest
    · exact ⟨_, hitem⟩
    · exact ih hrest

theorem Parenthesized.exists_of_mem {kind : TokenKind} {item : β → List Token → Prop} {b : β}
    {bs : List β} {ts : List Token} (h : Parenthesized (Separated kind item) bs ts) (hb : b ∈ bs) :
    ∃ us, item b us := by
  cases h with
  | none | empty _ _ => cases hb
  | list _ hbs _ => exact hbs.exists_of_mem hb

/-- How the values of a list are put together from those of its items, and which value the rule for
an item gives for each of the items that the grammar knows. -/
structure Assembly (α β γ : Type) where
  nil : γ
  cons : α → γ → γ
  value : β → α
  all : List β → γ
  all_nil : all [] = nil
  all_cons : ∀ b bs, all (b :: bs) = cons (value b) (all bs)

namespace Assembly

/-- Items that are kept as they are. -/
def items : Assembly α α (List α) := ⟨[], List.cons, id, id, rfl, fun _ _ => rfl⟩

/-- Items of which a rule gives a list, since it gives none where there is none. -/
def optional : Assembly (List α) α (List α) :=
  ⟨[], List.append, fun a => [a], id, rfl, fun _ _ => rfl⟩

/-- Groups of items that lose their boundaries. -/
def groups : Assembly (List α) (List α) (List α) :=
  ⟨[], List.append, id, List.flatten, rfl, fun _ _ => rfl⟩

end Assembly

/-- The rule goes on with a further item after each separator. -/
def IsLoop (kind : TokenKind) (a : Assembly α β γ) (item : List Token → Step α)
    (more : List Token → Step γ) : Prop :=
  ∀ tokens, more tokens = match tokens with
    | [] => ⟨a.nil, 0, []⟩
    | t :: rest =>
      if t.kind = kind then
        let one := item rest
        let others := more (rest.drop one.used)
        ((one.andThen others).as (a.cons one.value others.value)).past 1
      else ⟨a.nil, 0, []⟩

section
variable {kind : TokenKind} {a : Assembly α β γ} {item : List Token → Step α}
  {more : List Token → Step γ} {derives : β → List Token → Prop}

theorem IsLoop.of_end (hl : IsLoop kind a item more) {tokens : List Token}
    (h : kindAhead tokens ≠ kind) : more tokens = ⟨a.nil, 0, []⟩ := by
  rw [hl tokens]
  cases tokens with
  | nil => rfl
  | cons t rest => simp_all

theorem IsLoop.cons (hl : IsLoop kind a item more) {separator : Token}
    (hs : separator.kind = kind) {ts rest : List Token} {v : α}
    (h : item (ts ++ rest) = ⟨v, ts.length, []⟩) :
    more (separator :: (ts ++ rest)) =
      ((more rest).as (a.cons v (more rest).value)).past (1 + ts.length) := by
  rw [hl]
  simp [hs, h]

/-- A separator and a list are read back up to a token that is no separator. -/
theorem IsLoop.read (hl : IsLoop kind a item more) {last : TokenKind}
    (hitem : ∀ b ts rest, derives b ts → kindAhead rest = kind ∨ kindAhead rest = last →
      item (ts ++ rest) = ⟨a.value b, ts.length, []⟩)
    (hlast : kind ≠ last) {bs : List β} {ts : List Token} (h : Separated kind derives bs ts)
    (rest : List Token) (hr : kindAhead rest = last) {separator : Token}
    (hs : separator.kind = kind) :
    more (separator :: (ts ++ rest)) = ⟨a.all bs, 1 + ts.length, []⟩ := by
  induction h generalizing separator with
  | @single b ts hb =>
    have hk : kindAhead rest ≠ kind := by rw [hr]; exact hlast.symm
    rw [hl.cons hs (hitem b ts rest hb (.inr hr)), hl.of_end hk]
    simp [a.all_cons, a.all_nil]
  | @cons b bs separator' ts rs hb hs' _ ih =>
    have hone := hitem b ts (separator' :: (rs ++ rest)) hb (.inl hs')
    rw [List.append_assoc, List.cons_append, hl.cons hs hone, ih hs']
    simp [a.all_cons]
    omega

/-- A list is read without a fault only as the grammar derives it, if its items are. -/
theorem IsLoop.exact (hl : IsLoop kind a item more) (hk : kind ≠ .endOfInput)
    (hitem : ∀ tokens, (item tokens).faults = [] →
      IsExactBeforeEnd item (fun v ts => ∃ b, v = a.value b ∧ derives b ts) tokens)
    {tokens : List Token} (h : (more tokens).faults = []) :
    IsExactBeforeEnd more (fun v ts => ∃ bs, v = a.all bs ∧ ∀ b us, derives b us →
      Separated kind derives (b :: bs) (us ++ ts)) tokens := by
  -- The induction is on the number of tokens, since an item may use any number of them.
  generalize hn : tokens.length = n
  induction n using Nat.strongRecOn generalizing tokens with
  | ind n ih =>
    by_cases hnext : kindAhead tokens = kind
    · obtain ⟨separator, inside, hs, rfl⟩ := cons_of_kindAhead hk hnext
      have hmore := hl (separator :: inside)
      simp only [hs, if_true] at hmore
      rw [hmore] at h
      simp only [Step.past_faults, Step.as_faults, Step.andThen_faults,
        List.append_eq_nil_iff] at h
      obtain ⟨_, ts, after, ⟨b, rfl, hb⟩, rfl, hone⟩ | hend := hitem inside h.1
      · simp only [hone, List.drop_left] at h
        obtain ⟨_, rs, rest, ⟨bs, rfl, hbs⟩, rfl, hr⟩ | hend :=
          ih after.length (by simp at hn; omega) h.2 rfl
        · refine .inl ⟨_, separator :: (ts ++ rs), rest, ⟨b :: bs, rfl, fun c us hc => ?_⟩,
            by simp, ?_⟩
          · exact .cons hc hs (hbs b ts hb)
          · rw [List.cons_append, List.append_assoc, hl.cons hs hone, hr]
            simp [a.all_cons]
            omega
        · refine .inr ?_
          rw [hl.cons hs hone]
          simpa [Nat.add_assoc] using hend
      · refine .inr ?_
        -- The item ended the tokens, so no separator follows it.
        have hlast : (more (inside.drop (item inside).used)).used = 0 := by
          rw [hl.of_end (by rw [hend]; exact hk.symm)]
        rw [hmore]
        simpa [hlast] using hend
    · refine .inl ⟨a.nil, [], tokens, ⟨[], a.all_nil.symm, fun b us hb => ?_⟩, rfl,
        hl.of_end hnext⟩
      simpa using Separated.single hb

/-- The rule for a list in parentheses. -/
def parenthesized (finish : EndMark) (a : Assembly α β γ) (item : List Token → Step α)
    (more : List Token → Step γ) (tokens : List Token) : Step γ :=
  if startsWith .leftParen tokens then
    let listed :=
      if startsWith .rightParen (tokens.drop 1) then ⟨a.nil, 1, []⟩
      else
        let first := (item (tokens.drop 1)).past 1
        let others := more (tokens.drop first.used)
        (first.andThen others).as (a.cons first.value others.value)
    (listed.andThen (expect finish .rightParen (tokens.drop listed.used))).as listed.value
  else ⟨a.nil, 0, []⟩

variable {finish : EndMark}

/-- A list in parentheses is read back. -/
theorem parenthesized_of_derives (hl : IsLoop kind a item more) (hk : kind ≠ .rightParen)
    (hitem : ∀ b ts rest, derives b ts → kindAhead rest = kind ∨ kindAhead rest = .rightParen →
      item (ts ++ rest) = ⟨a.value b, ts.length, []⟩)
    (hbegins : ∀ b ts rest, derives b ts → kindAhead (ts ++ rest) ≠ .rightParen)
    {bs : List β} {ts rest : List Token} (h : Parenthesized (Separated kind derives) bs ts)
    (hr : kindAhead rest ≠ .leftParen) :
    parenthesized finish a item more (ts ++ rest) = ⟨a.all bs, ts.length, []⟩ := by
  cases h with
  | none => simp [parenthesized, startsWith_eq, hr, a.all_nil]
  | empty ho hc => simp [parenthesized, startsWith, ho, hc, expect_cons hc, a.all_nil]
  | @list opening closing _ ts ho hbs hc =>
    cases hbs with
    | @single b ts hb =>
      have hb' := hbegins b ts (closing :: rest) hb
      have hone := hitem b ts (closing :: rest) hb (.inr hc)
      have hm : kindAhead (closing :: rest) ≠ kind := by rw [kindAhead_cons, hc]; exact hk.symm
      simp [parenthesized, startsWith_eq, ho, hb', hone, hl.of_end hm, expect_cons hc, a.all_cons,
        a.all_nil]
      omega
    | @cons b bs separator ts rs hb hs hbs =>
      have hb' := hbegins b ts (separator :: (rs ++ closing :: rest)) hb
      have hone := hitem b ts (separator :: (rs ++ closing :: rest)) hb (.inl hs)
      have hm : more (separator :: (rs ++ closing :: rest)) = ⟨a.all bs, 1 + rs.length, []⟩ :=
        hl.read hitem hk hbs (closing :: rest) hc hs
      simp [parenthesized, startsWith_eq, ho, hb', hone, hm, expect_cons hc, a.all_cons,
        Nat.add_assoc]
      omega

/-- A list in parentheses is read without a fault only as the grammar derives it. -/
theorem parenthesized_of_faultless (hl : IsLoop kind a item more) (hk : kind ≠ .endOfInput)
    (hitem : ∀ tokens, (item tokens).faults = [] →
      IsExactBeforeEnd item (fun v ts => ∃ b, v = a.value b ∧ derives b ts) tokens)
    {tokens : List Token} (h : (parenthesized finish a item more tokens).faults = []) :
    IsExact (parenthesized finish a item more) (fun v ts => ∃ bs, v = a.all bs ∧
      Parenthesized (Separated kind derives) bs ts) tokens := by
  by_cases hb : kindAhead tokens = .leftParen
  · obtain ⟨opening, inside, ho, rfl⟩ := cons_of_kindAhead (by decide) hb
    by_cases hp : kindAhead inside = .rightParen
    · obtain ⟨closing, rest, hc, rfl⟩ := cons_of_kindAhead (by decide) hp
      refine ⟨a.nil, [opening, closing], rest, ⟨[], a.all_nil.symm, .empty ho hc⟩, rfl, ?_⟩
      simp [parenthesized, startsWith, ho, hc, expect_cons hc]
    · simp [parenthesized, startsWith_eq, ho, hp] at h
      obtain ⟨_, ts, after, ⟨b, rfl, hd⟩, rfl, hone⟩ | hend := hitem inside h.1
      · simp [hone] at h
        obtain ⟨_, rs, after, ⟨bs, rfl, hbs⟩, rfl, hr⟩ :=
          (hl.exact hk hitem h.1).of_expect (by decide) h.2
        simp [hr] at h
        obtain ⟨closing, rest, hc, rfl⟩ := expect_of_faultless h
        refine ⟨_, opening :: ((ts ++ rs) ++ [closing]), rest,
          ⟨b :: bs, rfl, .list ho (hbs b ts hd) hc⟩, by simp, ?_⟩
        simp [parenthesized, startsWith_eq, ho, hp, hone, hr, expect_cons hc, a.all_cons,
          Nat.add_assoc]
        omega
      · -- The item ended the tokens, so the parenthesis is missing.
        have hlast : (more (inside.drop (item inside).used)).used = 0 := by
          rw [hl.of_end (by rw [hend]; exact hk.symm)]
        obtain ⟨closing, rest, hc, hd⟩ := expect_of_faultless h.2.2
        simp only [hlast, Nat.add_zero] at hd
        rw [hd, kindAhead_cons, hc] at hend
        exact absurd hend (by decide)
  · refine ⟨a.nil, [], tokens, ⟨[], a.all_nil.symm, .none⟩, rfl, ?_⟩
    simp [parenthesized, startsWith_eq, hb]

end

end Grammar
end PascalCheck
