import Mathlib.Data.List.Forall2
import PascalCheck.Proofs.Scope.Requests
import PascalCheck.Proofs.Walk.Nesting
import PascalCheck.Proofs.Walk.Tables

/-! # The table follows the text

At each point of a walk over a program whose declarations stand in front of its statements, the
table of scopes is described by what a reader of the text knows there (`Lexicon.Describes`): its
symbols are the first declarations, its open scopes know what the regions around the place declare,
and its counts of uses are the numbers of references.  One step keeps the description, whatever it
finds (`Describes.learn`), and so does the walk (`describes_of_reaches`). -/
namespace PascalCheck

namespace ScopeTable

theorem getElem?_update (table : ScopeTable) (name : String) (change : Symbol → Symbol)
    (number : Nat) :
    (table.update name change).symbols[number]? =
      if table.lookup name = some number then table.symbols[number]?.map change
      else table.symbols[number]? := by
  unfold update
  cases hl : table.lookup name with
  | none => rfl
  | some n =>
    show (table.symbols.modify n change)[number]? = _
    rw [Array.getElem?_modify]
    simp

@[simp] theorem size_update (table : ScopeTable) (name : String) (change : Symbol → Symbol) :
    (table.update name change).symbols.size = table.symbols.size := by
  unfold update
  split <;> simp

/-- Two changes of what a name means, one after the other. -/
theorem update_update (table : ScopeTable) (name : String) (change more : Symbol → Symbol) :
    (table.update name change).update name more = table.update name (more ∘ change) := by
  have hlookup := table.lookup_update name name change
  unfold update at hlookup ⊢
  cases hl : table.lookup name with
  | none => simp [hl]
  | some number =>
    rw [hl] at hlookup
    dsimp only at hlookup ⊢
    rw [hlookup]
    have hmodify : (table.symbols.modify number change).modify number more =
        table.symbols.modify number (more ∘ change) :=
      Array.ext_getElem? fun k => by
        simp only [Array.getElem?_modify]
        split <;> simp
    simp [hmodify]

theorem update_id (table : ScopeTable) (name : String) : table.update name id = table := by
  have hmodify : ∀ number, table.symbols.modify number id = table.symbols := fun number =>
    Array.ext_getElem? fun k => by
      rw [Array.getElem?_modify]
      split <;> simp
  unfold update
  split
  · rw [hmodify]
  · rfl

theorem find?_update (table : ScopeTable) (name : String) (change : Symbol → Symbol) :
    (table.update name change).find? name = (table.find? name).map change := by
  unfold find?
  rw [lookup_update]
  cases hl : table.lookup name with
  | none => rfl
  | some number =>
    show (table.update name change).symbols[number]? = table.symbols[number]?.map change
    rw [getElem?_update, if_pos hl]

end ScopeTable

/-- The scope knows the names that are declared in the region, by the places of their first
declarations. -/
def Scope.Knows (scope : Scope) (names : List KnownName) (routine : Option Nat) : Prop :=
  ∀ key, scope.number? key = names.findIdx? (KnownName.isOf routine key)

/-- The regions around the place, innermost first. -/
def Lexicon.regions (lexicon : Lexicon) : List (Option Nat) :=
  match lexicon.routine with
  | none => [none]
  | some r => [some r, none]

/-- How many uses a symbol has: the references to it, and one more if it is a parameter. -/
def Lexicon.uses (lexicon : Lexicon) (number : Nat) (known : KnownName) : Nat :=
  lexicon.references.count (some number) + if known.isParameter then 1 else 0

/-- The symbol is that of the declaration, with its uses. -/
structure Lexicon.Matches (lexicon : Lexicon) (number : Nat) (known : KnownName) (symbol : Symbol) :
    Prop where
  name : symbol.name = known.name
  line : symbol.line = known.line
  constant : symbol.category = .constant ↔ known.category = .constant
  uses : symbol.uses = lexicon.uses number known

/-- The open scopes: those of blocks, which declare nothing, and those of the regions. -/
structure Lexicon.Opens (lexicon : Lexicon) (blocks regions : List Scope) : Prop where
  count : blocks.length = lexicon.blocks
  empty : ∀ scope ∈ blocks, scope.entries = []
  known : List.Forall₂ (fun scope routine => scope.Knows lexicon.names routine) regions
    lexicon.regions

/-- What is known at a place describes the table. -/
structure Lexicon.Describes (lexicon : Lexicon) (table : ScopeTable) : Prop where
  size : table.symbols.size = lexicon.names.length
  symbols : ∀ number known, lexicon.names[number]? = some known →
    ∃ symbol, table.symbols[number]? = some symbol ∧ lexicon.Matches number known symbol
  scopes : ∃ blocks regions, table.scopes = blocks ++ regions ∧ lexicon.Opens blocks regions
  /-- The references lead to declarations. -/
  references : ∀ number, some number ∈ lexicon.references → number < lexicon.names.length
  /-- The regions of the declarations have been entered. -/
  entered : ∀ r, (some r ∈ lexicon.names.map KnownName.routine ∨ lexicon.routine = some r) →
    r < lexicon.routines

namespace Lexicon
variable {lexicon : Lexicon} {table : ScopeTable}

theorem describes_empty : ({} : Lexicon).Describes .empty where
  size := rfl
  symbols := nofun
  scopes := ⟨[], [⟨"global", []⟩], rfl, rfl, nofun, .cons (fun _ => rfl) .nil⟩
  references := nofun
  entered := by simp

/-! ## What names mean -/

theorem meaning_eq (lexicon : Lexicon) (name : String) :
    lexicon.meaning name = lexicon.regions.findSome? fun routine =>
      lexicon.names.findIdx? (KnownName.isOf routine (Text.lower name)) := by
  unfold meaning regions
  cases lexicon.routine with
  | none => cases hf : lexicon.names.findIdx? (KnownName.isOf none (Text.lower name)) <;> simp [hf]
  | some r =>
    cases hf : lexicon.names.findIdx? (KnownName.isOf (some r) (Text.lower name)) <;>
      cases hg : lexicon.names.findIdx? (KnownName.isOf none (Text.lower name)) <;> simp [hf, hg]

/-- **A name is looked up as the text says.** -/
theorem Describes.lookup (h : lexicon.Describes table) (name : String) :
    table.lookup name = lexicon.meaning name := by
  obtain ⟨blocks, regions, hscopes, hopens⟩ := h.scopes
  -- Blocks declare nothing, so that the search goes on to the regions.
  have hblocks : blocks.findSome? (·.number? (Text.lower name)) = none := by
    refine List.findSome?_eq_none_iff.mpr fun scope hscope => ?_
    rw [Scope.number?, hopens.empty scope hscope]
    rfl
  have hregions : ∀ {scopes : List Scope} {routines : List (Option Nat)},
      List.Forall₂ (fun scope routine => scope.Knows lexicon.names routine) scopes routines →
      scopes.findSome? (·.number? (Text.lower name)) = routines.findSome? fun routine =>
        lexicon.names.findIdx? (KnownName.isOf routine (Text.lower name)) := by
    intro scopes routines hall
    induction hall with
    | nil => rfl
    | cons hknows _ ih => rw [List.findSome?_cons, List.findSome?_cons, hknows, ih]
  rw [ScopeTable.lookup, hscopes, List.findSome?_append, hblocks, Option.none_or, meaning_eq]
  exact hregions hopens.known

theorem meaning_lt {name : String} {number : Nat} (h : lexicon.meaning name = some number) :
    number < lexicon.names.length := by
  rw [meaning_eq] at h
  obtain ⟨routine, -, hfound⟩ := List.exists_of_findSome?_eq_some h
  exact (List.findIdx?_eq_some_iff_getElem.mp hfound).1

/-- What a name means is the symbol of a declaration, if it means one. -/
theorem Describes.find? (h : lexicon.Describes table) (name : String) :
    lexicon.meaning name = none ∧ table.find? name = none ∨
      ∃ number known symbol, lexicon.meaning name = some number ∧
        lexicon.names[number]? = some known ∧ table.find? name = some symbol ∧
        lexicon.Matches number known symbol := by
  cases hm : lexicon.meaning name with
  | none => exact .inl ⟨rfl, by rw [ScopeTable.find?, h.lookup, hm]; rfl⟩
  | some number =>
    have hlt := meaning_lt hm
    have hknown : lexicon.names[number]? = some lexicon.names[number] :=
      List.getElem?_eq_getElem hlt
    obtain ⟨symbol, hsymbol, hmatches⟩ := h.symbols number _ hknown
    exact .inr ⟨number, _, symbol, rfl, hknown,
      by rw [ScopeTable.find?, h.lookup, hm]; exact hsymbol, hmatches⟩

/-- **An assignment stops where the text has nothing to assign to.** -/
theorem Describes.refuses (h : lexicon.Describes table) (name : String) :
    lexicon.refuses name = (table.find? name).all fun symbol => symbol.category = .constant := by
  unfold Lexicon.refuses
  rcases h.find? name with ⟨hm, hf⟩ | ⟨number, known, symbol, hm, hknown, hf, hmatches⟩
  · rw [hm, hf]
    rfl
  · rw [hm, hf]
    simp [hknown, hmatches.constant]

/-! ## Changes of symbols -/

/-- A change of the symbol that a name means, and of what is known of its uses. -/
theorem Describes.update {other : Lexicon} (h : lexicon.Describes table) {name : String}
    {change : Symbol → Symbol}
    (hmatches : ∀ number known symbol, lexicon.names[number]? = some known →
      table.symbols[number]? = some symbol → lexicon.Matches number known symbol →
      other.Matches number known
        (if lexicon.meaning name = some number then change symbol else symbol))
    (hnames : other.names = lexicon.names)
    (hplace : other.routine = lexicon.routine ∧ other.routines = lexicon.routines ∧
      other.blocks = lexicon.blocks)
    (hreferences : ∀ number, some number ∈ other.references → number < other.names.length) :
    other.Describes (table.update name change) where
  size := by rw [hnames, ScopeTable.size_update, h.size]
  symbols number known hknown := by
    rw [hnames] at hknown
    obtain ⟨symbol, hsymbol, hold⟩ := h.symbols number known hknown
    refine ⟨_, ?_, hmatches number known symbol hknown hsymbol hold⟩
    rw [ScopeTable.getElem?_update, h.lookup, hsymbol]
    split <;> rfl
  scopes := by
    obtain ⟨blocks, regions, hscopes, hopens⟩ := h.scopes
    refine ⟨blocks, regions, by rw [ScopeTable.scopes_update, hscopes], ?_, hopens.empty, ?_⟩
    · rw [hopens.count, hplace.2.2]
    · rw [hnames, Lexicon.regions, hplace.1]
      exact hopens.known
  references := hreferences
  entered := by
    rw [hnames, hplace.1, hplace.2.1]
    exact h.entered

/-- The change of the symbol touches nothing of what is known of it. -/
def IsUnnoticed (change : Symbol → Symbol) (symbol : Symbol) : Prop :=
  (change symbol).name = symbol.name ∧ (change symbol).line = symbol.line ∧
    ((change symbol).category = .constant ↔ symbol.category = .constant) ∧
      (change symbol).uses = symbol.uses

theorem Describes.update_of_isUnnoticed (h : lexicon.Describes table) {name : String}
    {change : Symbol → Symbol}
    (hc : ∀ symbol, table.find? name = some symbol → IsUnnoticed change symbol) :
    lexicon.Describes (table.update name change) := by
  refine h.update (fun number known symbol _ hsymbol hmatches => ?_) rfl ⟨rfl, rfl, rfl⟩
    h.references
  split
  next hm =>
    have hfind : table.find? name = some symbol := by
      rw [ScopeTable.find?, h.lookup, hm]
      exact hsymbol
    obtain ⟨hname, hline, hconstant, huses⟩ := hc symbol hfind
    exact ⟨hname.trans hmatches.name, hline.trans hmatches.line, hconstant.trans hmatches.constant,
      huses.trans hmatches.uses⟩
  next => exact hmatches

theorem Describes.markInitialized (h : lexicon.Describes table) (name : String) :
    lexicon.Describes (table.markInitialized name) :=
  h.update_of_isUnnoticed fun _ _ => ⟨rfl, rfl, Iff.rfl, rfl⟩

/-- A use is one more reference. -/
theorem Describes.countUse (h : lexicon.Describes table) (name : String) :
    ({ lexicon with references := lexicon.references ++ [lexicon.meaning name] }).Describes
      (table.countUse name) := by
  refine h.update (fun number known symbol _ _ hmatches => ?_) rfl ⟨rfl, rfl, rfl⟩ ?_
  · have huses : Lexicon.uses
        { lexicon with references := lexicon.references ++ [lexicon.meaning name] } number known =
          lexicon.uses number known + if lexicon.meaning name = some number then 1 else 0 := by
      simp only [Lexicon.uses, List.count_append, List.count_singleton, beq_iff_eq]
      omega
    split
    next hm => exact ⟨hmatches.name, hmatches.line, hmatches.constant, by
      rw [huses, if_pos hm, ← hmatches.uses]⟩
    next hm => exact ⟨hmatches.name, hmatches.line, hmatches.constant, by
      rw [huses, if_neg hm, ← hmatches.uses]; rfl⟩
  · intro number hmem
    rcases List.mem_append.mp hmem with hmem | hmem
    · exact h.references number hmem
    · exact meaning_lt (List.mem_singleton.mp hmem).symm

theorem Describes.startLoop (h : lexicon.Describes table) (name : String) :
    lexicon.Describes (table.startLoop name) := by
  unfold ScopeTable.startLoop
  cases hf : table.find? name with
  | none => exact h
  | some symbol =>
    dsimp only
    split
    · exact h
    · split
      next hconstant hvariable =>
        refine (h.markInitialized name).update_of_isUnnoticed fun marked hmarked => ?_
        have hcategory : marked.category ≠ .constant := by
          rw [ScopeTable.markInitialized, ScopeTable.find?_update, hf] at hmarked
          cases hmarked
          exact hconstant
        exact ⟨rfl, rfl, by simp [hcategory], rfl⟩
      next => exact h.markInitialized name

/-! ## Scopes -/

theorem Matches.congr {other : Lexicon} {number : Nat} {known : KnownName} {symbol : Symbol}
    (h : lexicon.Matches number known symbol)
    (hreferences : other.references = lexicon.references) : other.Matches number known symbol :=
  ⟨h.name, h.line, h.constant, h.uses.trans (by unfold Lexicon.uses; rw [hreferences])⟩

/-- Other scopes, and nothing else, are open. -/
theorem Describes.of_opens {other : Lexicon} {next : ScopeTable} (h : lexicon.Describes table)
    (hsymbols : next.symbols = table.symbols) (hnames : other.names = lexicon.names)
    (hreferences : other.references = lexicon.references) {blocks regions : List Scope}
    (hscopes : next.scopes = blocks ++ regions) (hopens : other.Opens blocks regions)
    (hentered : ∀ r, (some r ∈ other.names.map KnownName.routine ∨ other.routine = some r) →
      r < other.routines) : other.Describes next where
  size := by rw [hsymbols, hnames, h.size]
  symbols number known hknown := by
    rw [hnames] at hknown
    obtain ⟨symbol, hsymbol, hmatches⟩ := h.symbols number known hknown
    exact ⟨symbol, by rw [hsymbols, hsymbol], hmatches.congr hreferences⟩
  scopes := ⟨blocks, regions, hscopes, hopens⟩
  references number hmem := by
    rw [hreferences] at hmem
    rw [hnames]
    exact h.references number hmem
  entered := hentered

theorem Describes.openBlock (h : lexicon.Describes table) (name : String) :
    ({ lexicon with blocks := lexicon.blocks + 1 }).Describes (table.push name) := by
  obtain ⟨blocks, regions, hscopes, hopens⟩ := h.scopes
  have hnext : ({ lexicon with blocks := lexicon.blocks + 1 } : Lexicon).Opens
      ((table.push name).current :: blocks) regions :=
    ⟨congrArg (· + 1) hopens.count, List.forall_mem_cons.mpr ⟨rfl, hopens.empty⟩, hopens.known⟩
  refine h.of_opens rfl rfl rfl ?_ hnext h.entered
  rw [List.cons_append, ← hscopes]
  rfl

/-- What is behind the innermost of more than one open scope. -/
theorem scopes_pop_of_cons {scope : Scope} {rest : List Scope} (h : table.scopes = scope :: rest)
    (hrest : rest ≠ []) : table.pop.scopes = rest := by
  rw [ScopeTable.scopes_pop, if_neg, h, List.tail_cons]
  rw [← ScopeTable.length_scopes, h, List.length_cons]
  simpa using hrest

theorem Opens.regions_ne_nil {blocks regions : List Scope} (h : lexicon.Opens blocks regions) :
    regions ≠ [] := by
  rintro rfl
  have hlength := h.known.length_eq
  unfold Lexicon.regions at hlength
  split at hlength <;> cases hlength

theorem Describes.closeBlock (h : lexicon.Describes table) (hb : lexicon.blocks ≠ 0) :
    ({ lexicon with blocks := lexicon.blocks - 1 }).Describes table.pop := by
  obtain ⟨blocks, regions, hscopes, hopens⟩ := h.scopes
  cases blocks with
  | nil => exact absurd hopens.count.symm hb
  | cons scope blocks =>
    have hpop : table.pop.scopes = blocks ++ regions :=
      scopes_pop_of_cons hscopes (by simp [hopens.regions_ne_nil])
    have hcount := hopens.count
    rw [List.length_cons] at hcount
    exact h.of_opens rfl rfl rfl hpop
      ⟨by rw [← hcount]; rfl, fun s hs => hopens.empty s (List.mem_cons_of_mem _ hs), hopens.known⟩
      h.entered

/-- Without open blocks only the scopes of the regions are open. -/
theorem Describes.scopes_of_blocks (h : lexicon.Describes table) (hb : lexicon.blocks = 0) :
    lexicon.Opens [] table.scopes := by
  obtain ⟨blocks, regions, hscopes, hopens⟩ := h.scopes
  obtain rfl : blocks = [] := List.length_eq_zero_iff.mp (hopens.count.trans hb)
  rw [hscopes]
  exact hopens

theorem Describes.enterRoutine (h : lexicon.Describes table) (hb : lexicon.blocks = 0)
    (hr : lexicon.routine = none) (name : String) :
    ({ lexicon with routine := some lexicon.routines, routines := lexicon.routines + 1 }).Describes
      (table.push name) := by
  have hopens := h.scopes_of_blocks hb
  have hknown := hopens.known
  rw [regions, hr] at hknown
  -- The number of the routine is new, so that nothing is declared in it.
  have hnone : ∀ key,
      lexicon.names.findIdx? (KnownName.isOf (some lexicon.routines) key) = none := by
    intro key
    refine List.findIdx?_eq_none_iff.mpr fun known hmem => ?_
    have hne : known.routine ≠ some lexicon.routines := by
      intro heq
      exact absurd (h.entered _ (.inl (heq ▸ List.mem_map_of_mem hmem))) (Nat.lt_irrefl _)
    simp [KnownName.isOf, hne]
  let inside : Lexicon :=
    { lexicon with routine := some lexicon.routines, routines := lexicon.routines + 1 }
  have hnext : inside.Opens [] (table.push name).scopes :=
    ⟨hb.symm, nofun, .cons (fun key => (hnone key).symm) hknown⟩
  refine h.of_opens rfl rfl rfl (List.nil_append _).symm hnext ?_
  rintro r (hmem | heq)
  · exact Nat.lt_succ_of_lt (h.entered r (.inl hmem))
  · cases heq
    exact Nat.lt_succ_self _

theorem Describes.leaveRoutine (h : lexicon.Describes table) (hb : lexicon.blocks = 0)
    (hr : lexicon.routine.isSome = true) :
    ({ lexicon with routine := none }).Describes table.pop := by
  obtain ⟨r, hr⟩ := Option.isSome_iff_exists.mp hr
  have hopens := h.scopes_of_blocks hb
  have hknown := hopens.known
  rw [regions, hr] at hknown
  obtain ⟨scope, rest, hscope, hrest, hscopes⟩ := List.forall₂_cons_right_iff.mp hknown
  have hne : rest ≠ [] := by
    rintro rfl
    cases hrest
  have hpop : table.pop.scopes = [] ++ rest := scopes_pop_of_cons hscopes hne
  have hnext : ({ lexicon with routine := none } : Lexicon).Opens [] rest :=
    ⟨hb.symm, nofun, hrest⟩
  refine h.of_opens rfl rfl rfl hpop hnext ?_
  rintro r (hmem | heq)
  · exact h.entered r (.inl hmem)
  · cases heq

/-! ## Declarations -/

/-- The region of the place comes first, and once. -/
theorem regions_eq_cons (lexicon : Lexicon) :
    ∃ outer, lexicon.regions = lexicon.routine :: outer ∧ lexicon.routine ∉ outer := by
  unfold regions
  cases hr : lexicon.routine with
  | none => exact ⟨[], rfl, nofun⟩
  | some r => exact ⟨[none], rfl, by simp⟩

/-- What the innermost scope has under a name is what the text declares in the region. -/
theorem Describes.lookupCurrent (h : lexicon.Describes table) (hb : lexicon.blocks = 0)
    (name : String) : table.lookupCurrent name =
      lexicon.names.findIdx? (KnownName.isOf lexicon.routine (Text.lower name)) := by
  obtain ⟨outer, hregions, -⟩ := lexicon.regions_eq_cons
  have hknown := (h.scopes_of_blocks hb).known
  rw [table.scopes_eq_cons, hregions] at hknown
  exact (List.forall₂_cons.mp hknown).1 _

variable {known : KnownName}

/-- A new declaration is found in its region, behind all others. -/
theorem findIdx?_extend (routine : Option Nat) (key : String) :
    (lexicon.extend known).names.findIdx? (KnownName.isOf routine key) =
      (lexicon.names.findIdx? (KnownName.isOf routine key)).or
        (if known.routine = routine ∧ Text.lower known.name = key then some lexicon.names.length
          else none) := by
  simp only [extend, List.findIdx?_append, List.findIdx?_singleton, KnownName.isOf,
    Bool.and_eq_true, beq_iff_eq]
  split <;> simp

/-- The scopes of other regions know what they knew. -/
theorem knows_extend {scopes : List Scope} {outer : List (Option Nat)}
    (h : List.Forall₂ (fun scope routine => scope.Knows lexicon.names routine) scopes outer)
    (houter : known.routine ∉ outer) :
    List.Forall₂ (fun scope routine => scope.Knows (lexicon.extend known).names routine)
      scopes outer := by
  induction h with
  | nil => exact .nil
  | cons hknows _ ih =>
    obtain ⟨hne, houter⟩ := not_or.mp (mt List.mem_cons.mpr houter)
    refine .cons (fun key => ?_) (ih houter)
    rw [hknows, findIdx?_extend, if_neg fun h => hne h.1, Option.or_none]

variable {ty : Ty} {declared : ScopeTable}

/-- The open scopes know the new declaration, the innermost one by its place. -/
theorem Describes.opens_extend (h : lexicon.Describes table) (hb : lexicon.blocks = 0)
    (hr : known.routine = lexicon.routine)
    (hd : table.declare? known.name ty known.line known.category = some declared) :
    (lexicon.extend known).Opens [] declared.scopes := by
  obtain ⟨hnone, -, hscopes, -⟩ := ScopeTable.declare?_eq_some hd
  obtain ⟨outer, hregions, houter⟩ := lexicon.regions_eq_cons
  have hknown := (h.scopes_of_blocks hb).known
  rw [table.scopes_eq_cons, hregions] at hknown
  obtain ⟨hcurrent, hrest⟩ := List.forall₂_cons.mp hknown
  have hextended : (lexicon.extend known).regions = lexicon.routine :: outer := hregions
  refine ⟨hb.symm, nofun, ?_⟩
  rw [hscopes, hextended]
  refine .cons (fun key => ?_) (knows_extend hrest (hr ▸ houter))
  rw [Scope.number?_concat hnone, findIdx?_extend, hr, ← h.size]
  by_cases hkey : key = Text.lower known.name
  · rw [hkey, Function.update_self, ← h.lookupCurrent hb, hnone]
    simp
  · rw [Function.update_of_ne hkey, hcurrent]
    simp [Ne.symm hkey]

/-- The change of a new symbol is all that counts of it as used. -/
def IsFirst (isParameter : Bool) (change : Symbol → Symbol) : Prop :=
  ∀ symbol, (change symbol).name = symbol.name ∧ (change symbol).line = symbol.line ∧
    (change symbol).category = symbol.category ∧
      (change symbol).uses = symbol.uses + if isParameter then 1 else 0

theorem isFirst_id : IsFirst false id :=
  fun _ => ⟨rfl, rfl, rfl, rfl⟩

theorem isFirst_initialized : IsFirst false fun symbol => { symbol with initialized := true } :=
  fun _ => ⟨rfl, rfl, rfl, rfl⟩

theorem isFirst_parameter :
    IsFirst true ((fun symbol => { symbol with uses := symbol.uses + 1 }) ∘
      fun symbol => { symbol with initialized := true }) :=
  fun _ => ⟨rfl, rfl, rfl, rfl⟩

variable {change : Symbol → Symbol}

/-- The symbol of a declaration, when it is new. -/
def newSymbol (known : KnownName) (ty : Ty) (scope : String) : Symbol :=
  { name := known.name, ty, scope, line := known.line, category := known.category }

/-- The symbols are those of the declarations, the new one included. -/
theorem Describes.matches_extend (h : lexicon.Describes table)
    (hc : IsFirst known.isParameter change) (ty : Ty) (scope : String) {number : Nat}
    {other : KnownName}
    (hother : (lexicon.extend known).names[number]? = some other) :
    ∃ symbol, (if number = lexicon.names.length then some (change (newSymbol known ty scope))
        else table.symbols[number]?) = some symbol ∧
      (lexicon.extend known).Matches number other symbol := by
  rcases Nat.lt_or_ge number lexicon.names.length with hlt | hge
  · -- The references to what was declared before are as many as before.
    have hold : lexicon.names[number]? = some other :=
      (List.getElem?_append_left hlt).symm.trans hother
    obtain ⟨symbol, hsymbol, hmatches⟩ := h.symbols number other hold
    exact ⟨symbol, by rw [if_neg (Nat.ne_of_lt hlt), hsymbol], hmatches.congr rfl⟩
  · -- Nothing refers yet to what is declared here.
    have hlength := (List.getElem?_eq_some_iff.mp hother).1
    simp only [Lexicon.extend, List.length_append, List.length_singleton] at hlength
    obtain rfl : number = lexicon.names.length := by omega
    obtain rfl : known = other := Option.some.inj (List.getElem?_concat_length.symm.trans hother)
    have hcount : lexicon.references.count (some lexicon.names.length) = 0 :=
      List.count_eq_zero.mpr fun hmem => Nat.lt_irrefl _ (h.references _ hmem)
    obtain ⟨hname, hline, hcategory, huses⟩ := hc (newSymbol known ty scope)
    refine ⟨_, if_pos rfl, hname, hline, by rw [hcategory, newSymbol], huses.trans ?_⟩
    rw [Lexicon.uses, Lexicon.extend, hcount, newSymbol]

/-- **A declaration** that is possible, with a change of the new symbol behind it. -/
theorem Describes.extend (h : lexicon.Describes table) (hb : lexicon.blocks = 0)
    (hr : known.routine = lexicon.routine)
    (hd : table.declare? known.name ty known.line known.category = some declared)
    (hc : IsFirst known.isParameter change) :
    (lexicon.extend known).Describes (declared.update known.name change) := by
  obtain ⟨hnone, hsymbols, hscopes, -⟩ := ScopeTable.declare?_eq_some hd
  have hlookup : declared.lookup known.name = some lexicon.names.length := by
    rw [ScopeTable.lookup, hscopes, List.findSome?_cons, Scope.number?_concat hnone,
      Function.update_self, h.size]
  refine ⟨?_, fun number other hother => ?_, ⟨[], _, ?_, h.opens_extend hb hr hd⟩, ?_, ?_⟩
  · rw [ScopeTable.size_update, hsymbols, Array.size_push, h.size]
    simp [Lexicon.extend]
  · obtain ⟨symbol, hsymbol, hmatches⟩ := h.matches_extend hc ty table.current.name hother
    refine ⟨symbol, ?_, hmatches⟩
    rw [← hsymbol, ScopeTable.getElem?_update, hlookup, hsymbols, Array.getElem?_push, h.size]
    by_cases hnumber : number = lexicon.names.length
    · rw [hnumber, if_pos rfl, if_pos rfl, if_pos rfl]
      rfl
    · rw [if_neg hnumber, if_neg hnumber, if_neg fun h => hnumber (Option.some.inj h).symm]
  · rw [ScopeTable.scopes_update]
    rfl
  · intro number hmem
    exact Nat.lt_of_lt_of_le (h.references number hmem) (by simp [Lexicon.extend])
  · rintro r (hmem | heq)
    · simp only [Lexicon.extend, List.map_append, List.map_cons, List.map_nil, List.mem_append,
        List.mem_singleton, hr] at hmem
      exact h.entered r (hmem.imp_right Eq.symm)
    · exact h.entered r (.inr heq)

/-- **A declaration follows the text**: it adds a symbol where the name is new in the region. -/
theorem Describes.declare (h : lexicon.Describes table) (hb : lexicon.blocks = 0)
    (hr : known.routine = lexicon.routine) (hc : IsFirst known.isParameter change) :
    (lexicon.declare known).Describes
      (table.declareThen known.name ty known.line known.category (·.update known.name change)) := by
  have hlookup := congrArg Option.isSome (h.lookupCurrent hb known.name)
  rw [List.findIdx?_isSome, ← hr] at hlookup
  unfold Lexicon.declare ScopeTable.declareThen
  cases hd : table.declare? known.name ty known.line known.category with
  | none =>
    have hsome := Option.isSome_iff_ne_none.mpr (ScopeTable.declare?_eq_none_iff.mp hd)
    rw [if_pos (hlookup.symm.trans hsome)]
    exact h
  | some declared =>
    obtain ⟨hnone, -⟩ := ScopeTable.declare?_eq_some hd
    rw [hnone] at hlookup
    rw [if_neg (by simp [← hlookup])]
    exact h.extend hb hr hd hc

theorem Describes.declareResult (h : lexicon.Describes table) (hb : lexicon.blocks = 0)
    (routine : DeclaredRoutine) :
    (lexicon.learn (.result routine)).Describes (table.declareResult routine) := by
  let known : KnownName := ⟨lexicon.routine, routine.name, routine.line, .result, false⟩
  show ((if routine.result.isSome then some known else none).elim lexicon
    lexicon.declare).Describes _
  unfold ScopeTable.declareResult
  cases routine.result with
  | none => exact h
  | some ty => exact @Describes.declare _ _ known ty _ h hb rfl isFirst_initialized

/-! ## The walk -/

/-- What is known does not depend on whether the place is passed over. -/
theorem Describes.of_skipping (h : lexicon.Describes table) (skipping : Bool) :
    ({ lexicon with skipping }).Describes table := by
  obtain ⟨blocks, regions, hscopes, hopens⟩ := h.scopes
  exact h.of_opens rfl rfl rfl hscopes ⟨hopens.count, hopens.empty, hopens.known⟩ h.entered

/-- **A step keeps the description**, whatever it finds. -/
theorem Describes.learn (h : lexicon.Describes table) {action : Action}
    (ha : lexicon.admits action = true) (types : List Ty) :
    (lexicon.learn action).Describes (action.onTable types table) := by
  cases action with
  | name n line | element n line => exact h.countUse n
  | read routine n line => exact (h.markInitialized n).countUse n
  | store n line => exact h.markInitialized n
  | target n line => exact h.of_skipping _
  | counter n line =>
    show lexicon.Describes (if n = "" then table else table.startLoop n)
    split
    · exact h
    · exact h.startLoop n
  | openBlock line => exact h.openBlock _
  | closeBlock => exact h.closeBlock (by simpa [admits] using ha)
  | enterRoutine routine =>
    obtain ⟨hb, hr⟩ : lexicon.blocks = 0 ∧ lexicon.routine = none := by simpa [admits] using ha
    exact h.enterRoutine hb hr _
  | leaveRoutine =>
    obtain ⟨hb, hr⟩ : lexicon.blocks = 0 ∧ lexicon.routine.isSome = true := by
      simpa [admits] using ha
    exact h.leaveRoutine hb hr
  | parameter line p =>
    let known : KnownName :=
      ⟨lexicon.routine, p.name, if p.line = 0 then line else p.line, .variable, true⟩
    have hdeclared := @Describes.declare _ _ known (Ty.resolve p.typeSpec.name) _ h
      (by simpa [admits] using ha) rfl isFirst_parameter
    simp only [← ScopeTable.update_update] at hdeclared
    exact hdeclared
  | result routine => exact h.declareResult (by simpa [admits] using ha) routine
  | «variable» n ty =>
    let known : KnownName := ⟨lexicon.routine, n.name, n.line, .variable, false⟩
    have hdeclared := @Describes.declare _ _ known ty _ h (by simpa [admits] using ha) rfl
      isFirst_id
    simp only [ScopeTable.update_id] at hdeclared
    exact hdeclared
  | constant n line =>
    let known : KnownName := ⟨lexicon.routine, n, line, .constant, false⟩
    exact @Describes.declare _ _ known (Action.top types) _ h (by simpa [admits] using ha) rfl
      isFirst_initialized
  | _ => exact h

/-- **The walk passes over what the text passes over.** -/
theorem Describes.skipping_learn (h : lexicon.Describes table) (hs : lexicon.skipping = false)
    (action : Action) : (lexicon.learn action).skipping = action.stops table := by
  obtain ⟨names, hnames⟩ := lexicon.declared_eq (action.declared? lexicon.routine)
  cases action with
  | target n line => exact h.refuses n
  | parameter | result | «variable» | constant => exact (congrArg Lexicon.skipping hnames).trans hs
  | _ => exact hs

end Lexicon

namespace Analysis
variable {catalogue : Catalogue} {actions : List Action} {held : Held} {s : AnalysisState}

open Lexicon

/-- **Each point of a walk is described by the steps in front of it**: with what they say about its
table, and about whether it is passed over.  No unused variable has been found so far. -/
theorem describes_of_reaches (ha : ({} : Lexicon).admitsAll actions = true)
    (h : Reaches catalogue actions held s) :
    (behind actions).Describes s.table ∧ held.skipping = (behind actions).skipping ∧
      s.unusedFound = [] := by
  induction actions using List.reverseRecOn generalizing held s with
  | nil =>
    obtain ⟨rfl, rfl⟩ := reaches_nil.mp h
    exact ⟨describes_empty, rfl, rfl⟩
  | append_singleton actions action ih =>
    obtain ⟨held', s', hbefore, hrun⟩ := reaches_concat.mp h
    rw [admitsAll_append, Bool.and_eq_true] at ha
    obtain ⟨hdescribes, hskipping, hunused⟩ := ih ha.1 hbefore
    have hadmits : (behind actions).admits action = true := (Bool.and_eq_true_iff.mp ha.2).1
    rw [behind_concat]
    unfold Action.perform at hrun
    unfold next
    rw [hskipping] at hrun
    by_cases hs : (behind actions).skipping = true
    · rw [if_pos hs] at hrun ⊢
      cases hrun
      exact ⟨hdescribes.of_skipping _, rfl, hunused⟩
    · rw [if_neg hs] at hrun ⊢
      obtain ⟨⟨htable, hstops⟩, hfound⟩ := moves_effect action held'.types s' held s hrun
      rw [htable, hstops, hfound]
      exact ⟨hdescribes.learn hadmits _,
        (hdescribes.skipping_learn (Bool.eq_false_iff.mpr hs) action).symm, hunused⟩

end Analysis
end PascalCheck
