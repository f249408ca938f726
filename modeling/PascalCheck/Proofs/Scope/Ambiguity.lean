import Mathlib.Data.List.Basic
import PascalCheck.Proofs.Scope.History

/-! # Names that are declared more than once

When a run is over, its symbols are put together by their names in lower case.  The groups of more
than one symbol are the ambiguous names of the run.  They are exact (`ambiguousExactly_after`): each
has all symbols of its name but the results of functions, in the order of declaration; the groups
have nothing in common and come in the order of their first symbols.  No two symbols of a group were
declared in one and the same scope (`not_declaredTogether`), since a scope takes no name twice. -/
namespace PascalCheck

section Grouping

variable {α κ : Type} [DecidableEq κ] (keyOf : α → κ) {before : α → α → Prop}

theorem filter_ne_map (key : κ) (l : List α) :
    (l.map keyOf).filter (fun other => !other == key) =
      (l.filter fun a => !keyOf a == key).map keyOf := by
  rw [List.filter_map]
  rfl

/-- What has another key is in the same group without the items of a key. -/
theorem filter_cons_filter_ne {a : α} {l : List α} {key : κ} (h : key ≠ keyOf a) :
    (a :: l).filter (fun b => keyOf b == key) =
      (l.filter fun b => !keyOf b == keyOf a).filter fun b => keyOf b == key := by
  rw [List.filter_cons_of_neg (by simpa using Ne.symm h), List.filter_filter]
  apply List.filter_congr
  intro b _
  by_cases hb : keyOf b = key
  · simp [hb, h]
  · simp [hb]

/-- **The keys of a list are different, and each comes before the next one**, by the first items
that have them. -/
theorem pairwise_eraseDups_map {l : List α} (h : l.Pairwise before) :
    (l.map keyOf).eraseDups.Pairwise fun key other => key ≠ other ∧
      ∀ a ∈ (l.filter fun a => keyOf a == key).head?,
        ∀ b ∈ (l.filter fun b => keyOf b == other).head?, before a b := by
  match l with
  | [] => exact List.Pairwise.nil
  | a :: rest =>
    rw [List.map_cons, List.eraseDups_cons, filter_ne_map]
    have hother : ∀ key ∈ ((rest.filter fun b => !keyOf b == keyOf a).map keyOf).eraseDups,
        keyOf a ≠ key := by
      rintro key hkey rfl
      obtain ⟨b, hb, hkeyOf⟩ := List.mem_map.mp (List.mem_eraseDups.mp hkey)
      simp [hkeyOf] at hb
    rw [List.pairwise_cons] at h ⊢
    constructor
    · intro key hkey
      refine ⟨hother key hkey, ?_⟩
      intro first hfirst b hb
      rw [List.filter_cons_of_pos (by simp), List.head?_cons] at hfirst
      obtain rfl := Option.some.inj hfirst
      rw [filter_cons_filter_ne keyOf (hother key hkey).symm] at hb
      have hrest := List.mem_of_mem_head? hb
      exact h.1 b (List.mem_of_mem_filter (List.mem_of_mem_filter hrest))
    · -- The groups of the other keys are those of the list without the first key.
      have hrest := pairwise_eraseDups_map (h.2.filter fun b => !keyOf b == keyOf a)
      refine hrest.imp_of_mem ?_
      intro key other hkey hkey' hpair
      rw [filter_cons_filter_ne keyOf (hother key hkey).symm,
        filter_cons_filter_ne keyOf (hother other hkey').symm]
      exact hpair
termination_by l.length
decreasing_by exact Nat.lt_succ_of_le (List.length_filter_le _ _)

end Grouping

namespace ScopeTable

/-! ## The groups of a table -/

section Groups

variable (table : ScopeTable)

theorem mem_numbered {s : NumberedSymbol} :
    s ∈ table.numbered ↔ table.symbols[s.2]? = some s.1 := by
  rw [← Array.getElem?_toList]
  exact List.mem_zipIdx_iff_getElem?

theorem pairwise_numbered : table.numbered.Pairwise fun s t => s.2 < t.2 := by
  have h : (table.numbered.map Prod.snd).Pairwise (· < ·) := by
    unfold numbered
    rw [List.zipIdx_map_snd]
    exact List.pairwise_lt_range'
  exact List.pairwise_map.mp h

theorem mem_nameable {s : NumberedSymbol} :
    s ∈ table.nameable ↔ table.symbols[s.2]? = some s.1 ∧ s.1.category ≠ .result := by
  unfold nameable
  rw [List.mem_filter, mem_numbered, decide_eq_true_eq]

theorem pairwise_nameable : table.nameable.Pairwise fun s t => s.2 < t.2 :=
  (pairwise_numbered table).filter _

/-- The symbols of a name in lower case that take part in ambiguities. -/
def sharing (key : String) : List NumberedSymbol :=
  table.nameable.filter fun s => Text.lower s.1.name == key

theorem mem_sharing {key : String} {s : NumberedSymbol} :
    s ∈ table.sharing key ↔ table.symbols[s.2]? = some s.1 ∧ Text.lower s.1.name = key ∧
      s.1.category ≠ .result := by
  unfold sharing
  rw [List.mem_filter, mem_nameable, beq_iff_eq]
  tauto

theorem pairwise_sharing (key : String) : (table.sharing key).Pairwise fun s t => s.2 < t.2 :=
  (pairwise_nameable table).filter _

theorem groups_eq :
    table.groups = (table.nameable.map fun s => Text.lower s.1.name).eraseDups.map
      fun key => ⟨key, table.sharing key⟩ := by
  simp only [groups, List.map_map, List.filter_map]
  refine congrArg₂ List.map ?_ rfl
  funext key
  exact congrArg (NameGroup.mk key) (List.map_id _)

/-- A group is ambiguous if it is that of a name with more than one symbol. -/
theorem mem_ambiguities {group : NameGroup} :
    group ∈ table.ambiguities ↔
      group.members = table.sharing group.key ∧ 1 < group.members.length := by
  unfold ambiguities
  rw [List.mem_filter, decide_eq_true_eq, groups_eq]
  refine and_congr_left fun hlength => ?_
  constructor
  · intro hgroup
    obtain ⟨key, -, rfl⟩ := List.mem_map.mp hgroup
    rfl
  · intro hmembers
    refine List.mem_map.mpr ⟨group.key, ?_, ?_⟩
    · -- A group that is not empty has a symbol of its name.
      obtain ⟨s, hs⟩ := List.exists_mem_of_length_pos (Nat.zero_lt_of_lt hlength)
      rw [hmembers, sharing, List.mem_filter, beq_iff_eq] at hs
      exact List.mem_eraseDups.mpr (List.mem_map.mpr ⟨s, hs.1, hs.2⟩)
    · rw [← hmembers]

/-- The groups come in the order of their first symbols. -/
theorem pairwise_ambiguities :
    table.ambiguities.Pairwise fun g h => g.key ≠ h.key ∧
      ∀ s ∈ g.members.head?, ∀ t ∈ h.members.head?, s.2 < t.2 := by
  unfold ambiguities
  rw [groups_eq]
  exact (List.pairwise_map.mpr
    (pairwise_eraseDups_map (fun s : NumberedSymbol => Text.lower s.1.name)
      (pairwise_nameable table))).filter _

/-- More than one symbol of a name take part in ambiguities if two different ones do. -/
theorem one_lt_length_sharing {key : String} :
    1 < (table.sharing key).length ↔
      ∃ s ∈ table.sharing key, ∃ t ∈ table.sharing key, s.2 ≠ t.2 := by
  have hpairwise := pairwise_sharing table key
  constructor
  · intro hlength
    match hsharing : table.sharing key with
    | [] | [_] =>
      rw [hsharing] at hlength
      simp at hlength
    | s :: t :: rest =>
      rw [hsharing, List.pairwise_cons] at hpairwise
      exact ⟨s, by simp, t, by simp, Nat.ne_of_lt (hpairwise.1 t (by simp))⟩
  · rintro ⟨s, hs, t, ht, hne⟩
    match hsharing : table.sharing key with
    | [] =>
      rw [hsharing] at hs
      cases hs
    | [_] =>
      rw [hsharing, List.mem_singleton] at hs ht
      exact absurd (hs.trans ht.symm ▸ rfl) hne
    | _ :: _ :: _ => simp

end Groups

/-! ## Scopes -/

/-- The symbols of two numbers were declared in the same scope: between their declarations that
scope was not closed, and every scope that was opened inside was closed again. -/
def DeclaredTogether (requests : List ScopeRequest) (number number' : Nat) : Prop :=
  ∃ before first middle second rest d d',
    requests = before ++ first :: middle ++ second :: rest ∧
    (after before).declares first = [d] ∧ (declared before).length = number ∧
    (after (before ++ first :: middle)).declares second = [d'] ∧
    (declared (before ++ first :: middle)).length = number' ∧
    depthAfter (before ++ first :: middle) = depthAfter before ∧
    ∀ part, part <+: middle → depthAfter before ≤ depthAfter (before ++ first :: part)

theorem declares_eq_singleton {table : ScopeTable} {request : ScopeRequest}
    {d : SymbolDeclaration} (h : table.declares request = [d]) :
    ∃ category, request = .declare d.name d.ty d.line category ∧
      (table.serve request).1 = .met true := by
  unfold declares at h
  split at h
  next name ty line category hmet =>
    cases h
    exact ⟨category, rfl, hmet⟩
  next => cases h

/-- The symbol of a declaration has what it was declared with. -/
theorem getElem?_declared {before rest : List ScopeRequest} {request : ScopeRequest}
    {d : SymbolDeclaration} (h : (after before).declares request = [d]) :
    (declared (before ++ request :: rest))[(declared before).length]? = some d := by
  unfold declared
  rw [declaredFrom_append, List.getElem?_append_right (Nat.le_refl _), Nat.sub_self]
  show ((after before).declares request ++ _)[0]? = _
  rw [h]
  rfl

/-- **A scope takes no name twice.** -/
theorem not_declaredTogether {requests : List ScopeRequest} {s t : NumberedSymbol}
    (hs : (after requests).symbols[s.2]? = some s.1)
    (ht : (after requests).symbols[t.2]? = some t.1)
    (hname : Text.lower s.1.name = Text.lower t.1.name) :
    ¬ DeclaredTogether requests s.2 t.2 := by
  -- What the symbols are called is told by their declarations.
  have hcalled {number : Nat} {symbol : Symbol} {d : SymbolDeclaration}
      (hsymbol : (after requests).symbols[number]? = some symbol)
      (hd : (declared requests)[number]? = some d) : symbol.name = d.name := by
    rw [← map_declaration_after, List.getElem?_map, Array.getElem?_toList, hsymbol] at hd
    exact congrArg SymbolDeclaration.name (Option.some.inj hd)
  rintro ⟨before, first, middle, second, rest, d, d', hrequests, hfirst, hnumber, hsecond,
    hnumber', hdepth, hopen⟩
  have hsname : s.1.name = d.name := by
    apply hcalled hs
    rw [hrequests, ← hnumber, List.append_assoc, List.cons_append]
    exact getElem?_declared hfirst
  have htname : t.1.name = d'.name := by
    apply hcalled ht
    rw [hrequests, ← hnumber']
    exact getElem?_declared hsecond
  -- The first declaration still counts when the second one is made, so that this is not possible.
  obtain ⟨category, rfl, hmet⟩ := declares_eq_singleton hfirst
  obtain ⟨category', rfl, hmet'⟩ := declares_eq_singleton hsecond
  rw [met_declare_iff, hdepth, ← htname, ← hname, hsname] at hmet'
  have hpositive : 0 < depthAfter before := by
    rw [← depth_after]
    exact Nat.succ_pos _
  refine hmet' (declared before).length
    ⟨before, d.name, d.ty, d.line, category, middle, rfl, rfl, ?_, hmet, rfl, ?_⟩
  · omega
  · intro part hpart
    have := hopen part hpart
    omega

/-! ## All together -/

/-- What the ambiguities of a table are after requests. -/
structure AmbiguousExactly (requests : List ScopeRequest) (table : ScopeTable) : Prop where
  /-- Symbols are numbered in the order in which they were declared. -/
  declared : table.symbols.toList.map Symbol.declaration = declared requests
  /-- A group has all symbols of its name but the results of functions. -/
  members : ∀ group ∈ table.ambiguities, ∀ s, s ∈ group.members ↔
    table.symbols[s.2]? = some s.1 ∧ Text.lower s.1.name = group.key ∧ s.1.category ≠ .result
  /-- It has them in the order of declaration. -/
  ordered : ∀ group ∈ table.ambiguities, group.members.Pairwise fun s t => s.2 < t.2
  /-- There is a group of a name exactly if two different symbols belong to it. -/
  groups : ∀ key, (∃ group ∈ table.ambiguities, group.key = key) ↔
    ∃ s t : NumberedSymbol, s.2 ≠ t.2 ∧ ∀ u ∈ [s, t],
      table.symbols[u.2]? = some u.1 ∧ Text.lower u.1.name = key ∧ u.1.category ≠ .result
  /-- Groups have nothing in common. -/
  disjoint : table.ambiguities.Pairwise fun g h => g.key ≠ h.key ∧ g.members.Disjoint h.members
  /-- They come in the order in which their first symbols were declared. -/
  firsts : table.ambiguities.Pairwise fun g h =>
    ∀ s ∈ g.members.head?, ∀ t ∈ h.members.head?, s.2 < t.2
  /-- No two symbols of a group were declared in the same scope. -/
  scopes : ∀ group ∈ table.ambiguities, ∀ s ∈ group.members, ∀ t ∈ group.members,
    ¬ DeclaredTogether requests s.2 t.2
  /-- The groups of different types are those in which two symbols show different types. -/
  types : table.typeAmbiguities.Sublist table.ambiguities ∧
    ∀ group, group ∈ table.typeAmbiguities ↔ group ∈ table.ambiguities ∧
      ∃ s ∈ group.members, ∃ t ∈ group.members, s.1.ty.name ≠ t.1.ty.name

/-- **The ambiguities of a table are exact**, whatever it has been asked for. -/
theorem ambiguousExactly_after (requests : List ScopeRequest) :
    AmbiguousExactly requests (after requests) := by
  have hmembers : ∀ group ∈ (after requests).ambiguities, ∀ s, s ∈ group.members ↔
      (after requests).symbols[s.2]? = some s.1 ∧ Text.lower s.1.name = group.key ∧
        s.1.category ≠ .result := by
    intro group hgroup s
    rw [((mem_ambiguities _).mp hgroup).1, mem_sharing]
  have hpairwise := pairwise_ambiguities (after requests)
  refine ⟨map_declaration_after requests, hmembers, ?_, ?_, ?_, ?_, ?_, ?_, ?_⟩
  · intro group hgroup
    rw [((mem_ambiguities _).mp hgroup).1]
    exact pairwise_sharing _ _
  · intro key
    constructor
    · rintro ⟨group, hgroup, rfl⟩
      obtain ⟨hsharing, hlength⟩ := (mem_ambiguities _).mp hgroup
      rw [hsharing] at hlength
      obtain ⟨s, hs, t, ht, hne⟩ := (one_lt_length_sharing _).mp hlength
      refine ⟨s, t, hne, ?_⟩
      intro u hu
      rcases List.mem_pair.mp hu with rfl | rfl
      · exact (mem_sharing _).mp hs
      · exact (mem_sharing _).mp ht
    · rintro ⟨s, t, hne, hboth⟩
      refine ⟨⟨key, (after requests).sharing key⟩, (mem_ambiguities _).mpr ⟨rfl, ?_⟩, rfl⟩
      exact (one_lt_length_sharing _).mpr ⟨s, (mem_sharing _).mpr (hboth s (by simp)), t,
        (mem_sharing _).mpr (hboth t (by simp)), hne⟩
  · refine hpairwise.imp_of_mem ?_
    intro g h hg hh hpair
    refine ⟨hpair.1, ?_⟩
    intro s hs hs'
    exact hpair.1 (((hmembers g hg s).mp hs).2.1.symm.trans ((hmembers h hh s).mp hs').2.1)
  · exact hpairwise.imp And.right
  · intro group hgroup s hs t ht
    obtain ⟨hsymbol, hname, -⟩ := (hmembers group hgroup s).mp hs
    obtain ⟨hsymbol', hname', -⟩ := (hmembers group hgroup t).mp ht
    exact not_declaredTogether hsymbol hsymbol' (hname.trans hname'.symm)
  · exact List.filter_sublist
  · intro group
    unfold typeAmbiguities
    simp [List.mem_filter]

end ScopeTable
end PascalCheck
