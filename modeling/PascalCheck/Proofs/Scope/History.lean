import PascalCheck.Proofs.Scope.Consistency

/-! # What a table of scopes answers, told by the requests before

Which names are declared can be read off the requests alone: a declaration counts in its scope from
the moment it succeeds until the scope is closed.  Here are the depth, the declarations and the
declarations that still count after requests (`depthAfter`, `declared`, `DeclaredAt`), each with
what one more request does to it, and the answers of the table in these terms (`AnswersFor`). -/
namespace PascalCheck

namespace ScopeTable

/-! ## Depth -/

/-- How many scopes are open after requests to a new table. -/
def depthAfter (requests : List ScopeRequest) : Nat :=
  requests.foldl ScopeRequest.depth 1

@[simp] theorem depthAfter_concat (requests : List ScopeRequest) (request : ScopeRequest) :
    depthAfter (requests ++ [request]) = request.depth (depthAfter requests) := by
  simp [depthAfter]

theorem depth_of_serving {table next : ScopeTable} {request : ScopeRequest}
    (h : table.Serving request next) : next.depth = request.depth table.depth := by
  cases h with
  | opens name => rfl
  | closes =>
    show table.inner.tail.length + 1 = max 1 (table.inner.length + 1 - 1)
    rw [List.length_tail]
    omega
  | declares hd _ =>
    obtain ⟨-, -, hscopes, -⟩ := declare?_eq_some hd
    show next.depth = table.depth
    rw [← length_scopes, hscopes, ← length_scopes table, scopes_eq_cons table]
    rfl
  | changes number _ hdepth _ => exact (hdepth table.depth).symm
  | keeps hdepth _ => exact (hdepth table.depth).symm

/-- **The depth is told by the pushes and pops.** -/
theorem depth_after (requests : List ScopeRequest) :
    (after requests).depth = depthAfter requests := by
  induction requests using List.reverseRecOn with
  | nil => rfl
  | append_singleton requests request ih =>
    rw [after_concat, depth_of_serving (serving_serve _ request), ih, depthAfter_concat]

/-! ## Declarations -/

/-- What requests to a table declare, in order. -/
def declaredFrom (table : ScopeTable) : List ScopeRequest → List SymbolDeclaration
  | [] => []
  | request :: rest => table.declares request ++ (table.serve request).2.declaredFrom rest

/-- What requests to a new table declare, in order. -/
def declared (requests : List ScopeRequest) : List SymbolDeclaration :=
  empty.declaredFrom requests

theorem declaredFrom_append (table : ScopeTable) (requests more : List ScopeRequest) :
    table.declaredFrom (requests ++ more) =
      table.declaredFrom requests ++
        (requests.foldl (fun table request => (table.serve request).2) table).declaredFrom
          more := by
  induction requests generalizing table with
  | nil => rfl
  | cons request requests ih =>
    simp only [List.cons_append, declaredFrom, ih, List.append_assoc, List.foldl_cons]

theorem declared_concat (requests : List ScopeRequest) (request : ScopeRequest) :
    declared (requests ++ [request]) = declared requests ++ (after requests).declares request := by
  unfold declared
  rw [declaredFrom_append]
  simp [declaredFrom, after]

theorem map_declaration_of_serving {table next : ScopeTable} {request : ScopeRequest}
    (h : table.Serving request next) :
    next.symbols.toList.map Symbol.declaration =
      table.symbols.toList.map Symbol.declaration ++ table.declares request := by
  cases h with
  | opens name | closes => exact (List.append_nil _).symm
  | declares hd hdeclares =>
    obtain ⟨-, hsymbols, -⟩ := declare?_eq_some hd
    rw [hsymbols, Array.toList_push, List.map_append, hdeclares]
    rfl
  | changes number hchange _ hdeclares =>
    rw [hdeclares, List.append_nil]
    apply List.ext_getElem?
    intro other
    simp only [modify, List.getElem?_map, Array.getElem?_toList, Array.getElem?_modify]
    split
    · cases table.symbols[other]? with
      | none => rfl
      | some symbol => exact congrArg some (hchange symbol)
    · rfl
  | keeps _ hdeclares => rw [hdeclares, List.append_nil]

/-- **The symbols are what was declared, in order.** -/
theorem map_declaration_after (requests : List ScopeRequest) :
    (after requests).symbols.toList.map Symbol.declaration = declared requests := by
  induction requests using List.reverseRecOn with
  | nil => rfl
  | append_singleton requests request ih =>
    rw [after_concat, map_declaration_of_serving (serving_serve _ request), ih, declared_concat]

theorem size_after (requests : List ScopeRequest) :
    (after requests).symbols.size = (declared requests).length := by
  rw [← map_declaration_after, List.length_map, Array.length_toList]

/-! ## Declarations that still count -/

/-- A name in lower case has been declared in the scope at a level (above how many others) that is
still open, and its symbol has the number: a declaration of it was met when the scope was the
innermost one, and the scope has not been closed since. -/
def DeclaredAt (requests : List ScopeRequest) (level : Nat) (key : String) (number : Nat) : Prop :=
  ∃ before name ty line category rest,
    requests = before ++ .declare name ty line category :: rest ∧
    Text.lower name = key ∧
    depthAfter before = level + 1 ∧
    ((after before).serve (.declare name ty line category)).1 = .met true ∧
    (declared before).length = number ∧
    ∀ part, part <+: rest → level < depthAfter (before ++ .declare name ty line category :: part)

theorem not_declaredAt_nil {level number : Nat} {key : String} :
    ¬ DeclaredAt [] level key number := by
  rintro ⟨before, name, ty, line, category, rest, hrequests, -⟩
  simp at hrequests

/-- The scope of a declaration that counts is open. -/
theorem DeclaredAt.lt_depthAfter {requests : List ScopeRequest} {level number : Nat} {key : String}
    (h : DeclaredAt requests level key number) : level < depthAfter requests := by
  obtain ⟨before, name, ty, line, category, rest, rfl, -, -, -, -, hopen⟩ := h
  exact hopen rest (List.prefix_refl rest)

/-- After one more request those declarations count whose scope is still open, and the one that the
request makes. -/
theorem declaredAt_concat {requests : List ScopeRequest} {request : ScopeRequest}
    {level number : Nat} {key : String} :
    DeclaredAt (requests ++ [request]) level key number ↔
      (DeclaredAt requests level key number ∧ level < depthAfter (requests ++ [request])) ∨
        ∃ name ty line category, request = .declare name ty line category ∧
          Text.lower name = key ∧ depthAfter requests = level + 1 ∧
          ((after requests).serve request).1 = .met true ∧ (declared requests).length = number := by
  constructor
  · intro h
    have hlevel := h.lt_depthAfter
    obtain ⟨before, name, ty, line, category, rest, hrequests, hname, hdepth, hmet, hnumber,
        hopen⟩ :=
      h
    rcases List.eq_nil_or_concat rest with rfl | ⟨rest, last, rfl⟩
    · obtain ⟨rfl, hlast⟩ := List.append_inj' hrequests rfl
      obtain rfl := (List.cons.inj hlast).1
      exact .inr ⟨name, ty, line, category, rfl, hname, hdepth, hmet, hnumber⟩
    · rw [List.concat_eq_append] at hrequests hopen
      rw [← List.cons_append, ← List.append_assoc] at hrequests
      obtain ⟨rfl, hlast⟩ := List.append_inj' hrequests rfl
      refine .inl ⟨⟨before, name, ty, line, category, rest, rfl, hname, hdepth, hmet, hnumber, ?_⟩,
        hlevel⟩
      intro part hpart
      exact hopen part (hpart.trans (List.prefix_append rest [last]))
  · rintro (⟨⟨before, name, ty, line, category, rest, rfl, hname, hdepth, hmet, hnumber, hopen⟩,
      hlevel⟩ | ⟨name, ty, line, category, rfl, hname, hdepth, hmet, hnumber⟩)
    · refine ⟨before, name, ty, line, category, rest ++ [request], by simp, hname, hdepth, hmet,
        hnumber, ?_⟩
      intro part hpart
      rcases List.prefix_concat_iff.mp hpart with rfl | hpart
      · simpa using hlevel
      · exact hopen part hpart
    · refine ⟨requests, name, ty, line, category, [], rfl, hname, hdepth, hmet, hnumber, ?_⟩
      intro part hpart
      obtain rfl := List.prefix_nil.mp hpart
      rw [depthAfter_concat]
      show level < depthAfter requests
      omega

/-! ## What the open scopes hold -/

/-- The number under a name in lower case in the scope that lies above a number of others. -/
def numberAt : List Scope → Nat → String → Option Nat
  | [], _, _ => none
  | scope :: below, level, key =>
    if level = below.length then scope.number? key else numberAt below level key

theorem numberAt_cons (scope : Scope) (below : List Scope) (level : Nat) (key : String) :
    numberAt (scope :: below) level key =
      if level = below.length then scope.number? key else numberAt below level key := rfl

theorem lt_length_of_numberAt {scopes : List Scope} {level number : Nat} {key : String}
    (h : numberAt scopes level key = some number) : level < scopes.length := by
  induction scopes with
  | nil => cases h
  | cons scope below ih =>
    rw [numberAt_cons] at h
    split at h
    next hlevel =>
      rw [hlevel]
      exact Nat.lt_succ_self _
    next => exact Nat.lt_succ_of_lt (ih h)

theorem numberAt_of_length_le {scopes : List Scope} {level : Nat} (h : scopes.length ≤ level)
    (key : String) : numberAt scopes level key = none := by
  apply Option.eq_none_iff_forall_ne_some.mpr
  intro number hnumber
  exact absurd (lt_length_of_numberAt hnumber) (Nat.not_lt.mpr h)

/-- A scope that does not declare the name makes no difference. -/
theorem numberAt_cons_of_none {scope : Scope} {key : String} (h : scope.number? key = none)
    (below : List Scope) (level : Nat) :
    numberAt (scope :: below) level key = numberAt below level key := by
  rw [numberAt_cons]
  split
  next hlevel => rw [h, numberAt_of_length_le (Nat.le_of_eq hlevel.symm)]
  next => rfl

section Serving

variable {table : ScopeTable} {level number : Nat} {key : String}

theorem numberAt_push (name : String) :
    numberAt (table.push name).scopes level key = some number ↔
      numberAt table.scopes level key = some number := by
  show numberAt (_ :: table.scopes) level key = some number ↔ _
  rw [numberAt_cons_of_none rfl]

theorem numberAt_pop :
    numberAt table.pop.scopes level key = some number ↔
      numberAt table.scopes level key = some number ∧ level < table.pop.depth := by
  rw [← length_scopes]
  have hscopes := table.scopes_pop
  split at hscopes
  next =>
    rw [hscopes]
    exact ⟨fun hnumber => ⟨hnumber, lt_length_of_numberAt hnumber⟩, And.left⟩
  next =>
    rw [hscopes, scopes_eq_cons table, List.tail_cons, numberAt_cons]
    constructor
    · intro hnumber
      have hlt := lt_length_of_numberAt hnumber
      rw [if_neg (Nat.ne_of_lt hlt)]
      exact ⟨hnumber, hlt⟩
    · rintro ⟨hnumber, hlt⟩
      rwa [if_neg (Nat.ne_of_lt hlt)] at hnumber

theorem numberAt_declare {declared : ScopeTable} {name : String} {ty : Ty} {line : Int}
    {category : Category} (hd : table.declare? name ty line category = some declared) :
    numberAt declared.scopes level key = some number ↔
      numberAt table.scopes level key = some number ∨
        Text.lower name = key ∧ table.depth = level + 1 ∧ table.symbols.size = number := by
  obtain ⟨hnone, -, hscopes, -⟩ := declare?_eq_some hd
  replace hnone : table.current.number? (Text.lower name) = none := hnone
  have hdepth : table.depth = table.scopes.tail.length + 1 := by
    rw [← length_scopes, scopes_eq_cons table]
    rfl
  rw [hscopes, scopes_eq_cons table, List.tail_cons, numberAt_cons, numberAt_cons, hdepth,
    Scope.number?_concat hnone]
  by_cases hlevel : level = table.scopes.tail.length
  · rw [if_pos hlevel, if_pos hlevel]
    by_cases hkey : key = Text.lower name
    · rw [hkey, Function.update_self, hnone]
      simp [hlevel]
    · rw [Function.update_of_ne hkey]
      simp [Ne.symm hkey]
  · rw [if_neg hlevel, if_neg hlevel, or_iff_left]
    rintro ⟨-, hdepth, -⟩
    exact hlevel (Nat.succ.inj hdepth).symm

/-- **A request adds at most the number of what it declares, and takes away those of a scope that it
closes.** -/
theorem numberAt_of_serving {next : ScopeTable} {request : ScopeRequest}
    (h : table.Serving request next) :
    numberAt next.scopes level key = some number ↔
      (numberAt table.scopes level key = some number ∧ level < next.depth) ∨
        ∃ name ty line category, request = .declare name ty line category ∧
          Text.lower name = key ∧ table.depth = level + 1 ∧
          (table.serve request).1 = .met true ∧ table.symbols.size = number := by
  -- A declaration that is met declares.
  have hmet (hdeclares : table.declares request = []) :
      ¬ ∃ name ty line category, request = .declare name ty line category ∧
          Text.lower name = key ∧ table.depth = level + 1 ∧
          (table.serve request).1 = .met true ∧ table.symbols.size = number := by
    rintro ⟨name, ty, line, category, rfl, -, -, hmet, -⟩
    unfold ScopeTable.declares at hdeclares
    rw [hmet] at hdeclares
    cases hdeclares
  -- The level of a number is that of an open scope.
  have hopen (hnumber : numberAt table.scopes level key = some number) : level < table.depth :=
    length_scopes table ▸ lt_length_of_numberAt hnumber
  have hdepth := depth_of_serving h
  cases h with
  | opens name =>
    rw [or_iff_left (hmet rfl), numberAt_push]
    refine ⟨fun hnumber => ⟨hnumber, ?_⟩, And.left⟩
    exact Nat.lt_succ_of_lt (hopen hnumber)
  | closes => rw [or_iff_left (hmet rfl), numberAt_pop]
  | @declares name ty line category _ hd hdeclares =>
    have hserve : (table.serve (.declare name ty line category)).1 = .met true := by
      rw [serve_declare, hd]
      rfl
    rw [numberAt_declare hd, hdepth]
    constructor
    · rintro (hnumber | ⟨hname, hlevel, hsize⟩)
      · exact .inl ⟨hnumber, hopen hnumber⟩
      · exact .inr ⟨name, ty, line, category, rfl, hname, hlevel, hserve, hsize⟩
    · rintro (⟨hnumber, -⟩ | ⟨name', ty', line', category', hrequest, hname, hlevel, -, hsize⟩)
      · exact .inl hnumber
      · cases hrequest
        exact .inr ⟨hname, hlevel, hsize⟩
  | changes _ _ _ hdeclares | keeps _ hdeclares =>
    rw [or_iff_left (hmet hdeclares)]
    exact ⟨fun hnumber => ⟨hnumber, hopen hnumber⟩, And.left⟩

end Serving

/-- **The open scopes hold what the requests tell.** -/
theorem numberAt_after (requests : List ScopeRequest) {level number : Nat} {key : String} :
    numberAt (after requests).scopes level key = some number ↔
      DeclaredAt requests level key number := by
  induction requests using List.reverseRecOn generalizing level number key with
  | nil =>
    refine iff_of_false ?_ not_declaredAt_nil
    intro hnumber
    have hlevel := lt_length_of_numberAt hnumber
    obtain rfl : level = 0 := Nat.lt_one_iff.mp hlevel
    cases hnumber
  | append_singleton requests request ih =>
    rw [after_concat, numberAt_of_serving (serving_serve _ request), declaredAt_concat, ih,
      depth_of_serving (serving_serve _ request), depth_after, depthAfter_concat, size_after]

/-- The scope of a name is the innermost one that declares it. -/
theorem findSome?_eq_some_iff_numberAt {scopes : List Scope} {key : String} {number : Nat} :
    scopes.findSome? (·.number? key) = some number ↔
      ∃ level, numberAt scopes level key = some number ∧
        ∀ deeper, level < deeper → numberAt scopes deeper key = none := by
  induction scopes with
  | nil =>
    refine iff_of_false nofun ?_
    rintro ⟨level, hnumber, -⟩
    cases hnumber
  | cons scope below ih =>
    rw [List.findSome?_cons]
    cases hscope : scope.number? key with
    | none =>
      simp only [numberAt_cons_of_none hscope]
      exact ih
    | some found =>
      have htop : numberAt (scope :: below) below.length key = some found :=
        (if_pos rfl).trans hscope
      constructor
      · intro hfound
        refine ⟨below.length, htop.trans hfound, ?_⟩
        intro deeper hlevel
        exact numberAt_of_length_le hlevel key
      · rintro ⟨level, hnumber, hdeeper⟩
        have hlevel : ¬ level < below.length := by
          intro hlt
          rw [hdeeper below.length hlt] at htop
          cases htop
        have hlength : level < below.length + 1 := lt_length_of_numberAt hnumber
        obtain rfl : level = below.length := by omega
        exact htop.symm.trans hnumber

theorem numberAt_eq_none_of_findSome? {scopes : List Scope} {key : String}
    (h : scopes.findSome? (·.number? key) = none) (level : Nat) :
    numberAt scopes level key = none := by
  induction scopes with
  | nil => rfl
  | cons scope below ih =>
    obtain ⟨hscope, hbelow⟩ := List.forall_mem_cons.mp (List.findSome?_eq_none_iff.mp h)
    rw [numberAt_cons_of_none hscope]
    exact ih (List.findSome?_eq_none_iff.mpr hbelow)

/-! ## The answers -/

section Lookup

variable (requests : List ScopeRequest) {name : String} {number : Nat}

/-- **What a name means** is what the innermost open scope that declares it declares. -/
theorem lookup_after_eq_some_iff :
    (after requests).lookup name = some number ↔
      ∃ level, DeclaredAt requests level (Text.lower name) number ∧
        ∀ deeper other, level < deeper → ¬ DeclaredAt requests deeper (Text.lower name) other := by
  unfold lookup
  rw [findSome?_eq_some_iff_numberAt]
  simp only [Option.eq_none_iff_forall_ne_some, ne_eq, numberAt_after]
  constructor
  · rintro ⟨level, hnumber, hdeeper⟩
    exact ⟨level, hnumber, fun deeper other hlevel => hdeeper deeper hlevel other⟩
  · rintro ⟨level, hnumber, hdeeper⟩
    exact ⟨level, hnumber, fun deeper hlevel other => hdeeper deeper other hlevel⟩

/-- A name means nothing exactly if no open scope declares it. -/
theorem lookup_after_eq_none_iff :
    (after requests).lookup name = none ↔
      ∀ level number, ¬ DeclaredAt requests level (Text.lower name) number := by
  constructor
  · intro hnone level number hdeclared
    have hnumber := numberAt_eq_none_of_findSome? hnone level
    rw [numberAt_after requests |>.mpr hdeclared] at hnumber
    cases hnumber
  · intro hnone
    apply Option.eq_none_iff_forall_ne_some.mpr
    intro number hnumber
    obtain ⟨level, hdeclared, -⟩ := (lookup_after_eq_some_iff requests).mp hnumber
    exact hnone level number hdeclared

theorem lookupCurrent_after_eq_some_iff :
    (after requests).lookupCurrent name = some number ↔
      DeclaredAt requests (depthAfter requests - 1) (Text.lower name) number := by
  have hdepth : depthAfter requests - 1 = (after requests).scopes.tail.length := by
    rw [← depth_after, ← length_scopes, List.length_tail]
  rw [← numberAt_after, hdepth, scopes_eq_cons, List.tail_cons, numberAt_cons, if_pos rfl]
  rfl

end Lookup

/-- The number that a name means is that of a symbol. -/
theorem IsConsistent.lookup_lt_size {table : ScopeTable} (h : table.IsConsistent) {name : String}
    {number : Nat} (hn : table.lookup name = some number) : number < table.symbols.size := by
  obtain ⟨scope, hscope, hnumber⟩ := List.exists_of_findSome?_eq_some hn
  apply h.lt_size
  refine List.mem_flatMap.mpr ⟨scope, hscope, ?_⟩
  obtain ⟨before, after, hentries, -⟩ := List.lookup_eq_some_iff.mp hnumber
  rw [hentries]
  simp

theorem numbered?_eq_some_iff {table : ScopeTable} {found : Option Nat} {symbol : Symbol}
    {number : Nat} :
    table.numbered? found = some (symbol, number) ↔
      found = some number ∧ table.symbols[number]? = some symbol := by
  unfold numbered?
  cases found with
  | none => simp
  | some n =>
    simp only [Option.bind_some, Option.map_eq_some_iff, Prod.mk.injEq, Option.some.injEq]
    constructor
    · rintro ⟨symbol, hsymbol, rfl, rfl⟩
      exact ⟨rfl, hsymbol⟩
    · rintro ⟨rfl, hsymbol⟩
      exact ⟨symbol, hsymbol, rfl, rfl⟩

/-- The next table differs only in the symbol of a number, if any, and there by a change. -/
def ChangesOnly (table next : ScopeTable) (number : Option Nat) (change : Symbol → Symbol) : Prop :=
  next.scopes = table.scopes ∧ next.opened = table.opened ∧
    ∀ n : Nat, next.symbols[n]? =
      if number = some n then table.symbols[n]?.map change else table.symbols[n]?

theorem changesOnly_modify (table : ScopeTable) (number : Nat) (change : Symbol → Symbol) :
    table.ChangesOnly (table.modify number change) (some number) change := by
  refine ⟨rfl, rfl, fun n => ?_⟩
  show (table.symbols.modify number change)[n]? = _
  rw [Array.getElem?_modify]
  simp only [Option.some.injEq]

theorem changesOnly_update (table : ScopeTable) (name : String) (change : Symbol → Symbol) :
    table.ChangesOnly (table.update name change) (table.lookup name) change := by
  unfold update
  cases table.lookup name with
  | none => exact ⟨rfl, rfl, fun n => rfl⟩
  | some number => exact table.changesOnly_modify number change

/-- What a table answers after requests, told by the requests.  The numbers that the table gives
are places among all that was ever declared. -/
structure AnswersFor (requests : List ScopeRequest) (table : ScopeTable) : Prop where
  /-- The table is the model that served the same requests, and goes on like it. -/
  model : table.toModel = ScopeModel.after requests
  replies : ∀ request, (table.serve request).1 = ((ScopeModel.after requests).serve request).1
  consistent : table.IsConsistent
  numbers : ∀ number : Nat, table.numbered[number]? = table.symbols[number]?.map (·, number)
  symbols : table.symbols.toList.map Symbol.declaration = declared requests
  depth : table.depth = depthAfter requests
  depth_pos : 1 ≤ table.depth
  /-- A declaration is met exactly if there has been none of the name in the innermost scope since
  that was opened. -/
  declare : ∀ name ty line category,
    (table.serve (.declare name ty line category)).1 = .met true ↔
      ∀ number, ¬ DeclaredAt requests (depthAfter requests - 1) (Text.lower name) number
  refused : ∀ name ty line category,
    (table.serve (.declare name ty line category)).1 ≠ .met true →
      (table.serve (.declare name ty line category)).2 = table
  lookup : ∀ name symbol number,
    (table.serve (.lookup name)).1 = .found (some (symbol, number)) ↔
      table.symbols[number]? = some symbol ∧
        ∃ level, DeclaredAt requests level (Text.lower name) number ∧
          ∀ deeper other, level < deeper →
            ¬ DeclaredAt requests deeper (Text.lower name) other
  lookup_none : ∀ name, (table.serve (.lookup name)).1 = .found none ↔
    ∀ level number, ¬ DeclaredAt requests level (Text.lower name) number
  lookupCurrent : ∀ name symbol number,
    (table.serve (.lookupCurrent name)).1 = .found (some (symbol, number)) ↔
      table.symbols[number]? = some symbol ∧
        DeclaredAt requests (depthAfter requests - 1) (Text.lower name) number
  /-- What changes a symbol by its name changes the one that the name means, and nothing else. -/
  markInitialized : ∀ name, table.ChangesOnly (table.serve (.markInitialized name)).2
    (table.lookup name) fun symbol => { symbol with initialized := true }
  countUse : ∀ name, table.ChangesOnly (table.serve (.countUse name)).2 (table.lookup name)
    fun symbol => { symbol with uses := symbol.uses + 1 }
  setCategory : ∀ name category, table.ChangesOnly (table.serve (.setCategory name category)).2
    (table.lookup name) fun symbol => { symbol with category }
  setCategoryOf : ∀ number category,
    table.ChangesOnly (table.serve (.setCategoryOf number category)).2 (some number)
      fun symbol => { symbol with category }
  /-- All symbols of a name are all that were ever declared under it, in order. -/
  lookupAll : ∀ name, ∃ found, (table.serve (.lookupAll name)).1 = .listed found ∧
    found.map (fun s => (s.1.declaration, s.2)) =
      (declared requests).zipIdx.filter (fun d => Text.lower d.1.name == Text.lower name) ∧
    ∀ s ∈ found, table.symbols[s.2]? = some s.1

/-- A name can be declared in the innermost scope exactly if that does not declare it. -/
theorem met_declare_iff (requests : List ScopeRequest) (name : String) (ty : Ty) (line : Int)
    (category : Category) :
    ((after requests).serve (.declare name ty line category)).1 = .met true ↔
      ∀ number, ¬ DeclaredAt requests (depthAfter requests - 1) (Text.lower name) number := by
  have hnone : ((after requests).declare? name ty line category).isSome = true ↔
      (after requests).lookupCurrent name = none := by
    rw [← not_iff_not, ← ne_eq (lookupCurrent _ _),
      ← @declare?_eq_none_iff (after requests) name ty line category]
    simp
  rw [serve_declare, ScopeReply.met.injEq, hnone, Option.eq_none_iff_forall_ne_some]
  simp only [ne_eq, lookupCurrent_after_eq_some_iff]

theorem declare_refused (table : ScopeTable) {name : String} {ty : Ty} {line : Int}
    {category : Category} (h : (table.serve (.declare name ty line category)).1 ≠ .met true) :
    (table.serve (.declare name ty line category)).2 = table := by
  rw [serve_declare] at h ⊢
  cases hd : table.declare? name ty line category with
  | none => rfl
  | some declared =>
    rw [hd] at h
    exact absurd rfl h

theorem lookupAll_after (requests : List ScopeRequest) (name : String) :
    ((after requests).lookupAll name).map (fun s => (s.1.declaration, s.2)) =
      (declared requests).zipIdx.filter fun d => Text.lower d.1.name == Text.lower name := by
  unfold lookupAll numbered
  rw [← map_declaration_after, List.zipIdx_map, List.filter_map]
  rfl

theorem mem_lookupAll {table : ScopeTable} {name : String} {s : NumberedSymbol}
    (h : s ∈ table.lookupAll name) : table.symbols[s.2]? = some s.1 := by
  rw [← Array.getElem?_toList]
  exact List.mem_zipIdx_iff_getElem?.mp (List.mem_of_mem_filter h)

/-- **A table of scopes answers as the requests before tell.** -/
theorem answersFor_after (requests : List ScopeRequest) :
    AnswersFor requests (after requests) where
  model := toModel_after requests
  replies := by
    intro request
    rw [← toModel_after, serve_toModel]
  consistent := isConsistent_after requests
  numbers := by
    intro number
    simp [numbered, List.getElem?_zipIdx]
  symbols := map_declaration_after requests
  depth := depth_after requests
  depth_pos := Nat.succ_le_succ (Nat.zero_le _)
  declare := met_declare_iff requests
  refused := fun _ _ _ _ => declare_refused (after requests)
  lookup := by
    intro name symbol number
    show ScopeReply.found _ = _ ↔ _
    rw [ScopeReply.found.injEq, numbered?_eq_some_iff, lookup_after_eq_some_iff, and_comm]
  lookup_none := by
    intro name
    show ScopeReply.found _ = _ ↔ _
    rw [ScopeReply.found.injEq, ← lookup_after_eq_none_iff]
    constructor
    · intro hnone
      apply Option.eq_none_iff_forall_ne_some.mpr
      intro number hnumber
      have hlt := (isConsistent_after requests).lookup_lt_size hnumber
      rw [numbered?_eq_some_iff.mpr ⟨hnumber, Array.getElem?_eq_getElem hlt⟩] at hnone
      cases hnone
    · intro hnone
      rw [hnone]
      rfl
  lookupCurrent := by
    intro name symbol number
    show ScopeReply.found _ = _ ↔ _
    rw [ScopeReply.found.injEq, numbered?_eq_some_iff, lookupCurrent_after_eq_some_iff, and_comm]
  markInitialized := fun name => changesOnly_update _ name _
  countUse := fun name => changesOnly_update _ name _
  setCategory := fun name category => changesOnly_update _ name _
  setCategoryOf := fun number category => changesOnly_modify _ number _
  lookupAll := fun name => ⟨_, rfl, lookupAll_after requests name, fun _ => mem_lookupAll⟩

end ScopeTable
end PascalCheck
