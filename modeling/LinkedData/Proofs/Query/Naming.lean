import LinkedData.Proofs.Pattern.Key
import LinkedData.Proofs.Property
import LinkedData.Proofs.Query.Variable

/-!
# Names in patterns

A pattern names variables by its wildcards, and nodes by their identifiers. A wildcard can be
spelled like the subject variable of a node (`NumbersSubject`); patterns without such wildcards are
the ones in which the subject variables are fresh. Two nodes can stand for the same subject
if both are named (`Named`). An optional branch passes the clauses about its subject on to the
node that holds it; where this cannot change what some subjects stand for is said by
`Value.Keeps`.
-/

namespace LinkedData

/-! ## Wildcards -/

/-- The name that a key gives to a variable. -/
def keyNames (key : String) : List String :=
  match Text.after? "?" key with
  | some name => if name.isEmpty then [] else [name]
  | none => []

namespace Value

mutual

/-- The names of all wildcards of a value, in the place of properties and of values. -/
def wildcardNames : Value → List String
  | .wildcard (some name) => [name]
  | .node entries => wildcardNamesEntries entries
  | .list items => wildcardNamesItems items
  | _ => []

/-- The names of all wildcards of several values. -/
def wildcardNamesItems : List Value → List String
  | [] => []
  | item :: rest => item.wildcardNames ++ wildcardNamesItems rest

/-- The names of all wildcards in the entries of a node. -/
def wildcardNamesEntries : List (String × Value) → List String
  | [] => []
  | (key, value) :: rest => keyNames key ++ value.wildcardNames ++ wildcardNamesEntries rest

end

end Value

/-- The name is spelled like that of a subject variable. -/
def NumbersSubject (name : String) : Prop :=
  ∃ number : Nat, name = "S_" ++ toString number

/-- No wildcard among these names can be taken for the subject of a node. -/
def Unambiguous (names : List String) : Prop :=
  ∀ name ∈ names, ¬ NumbersSubject name

theorem Unambiguous.left {ns ms : List String} (h : Unambiguous (ns ++ ms)) : Unambiguous ns :=
  fun name hn => h name (List.mem_append_left ms hn)

theorem Unambiguous.right {ns ms : List String} (h : Unambiguous (ns ++ ms)) : Unambiguous ms :=
  fun name hn => h name (List.mem_append_right ns hn)

/-- The names in an entry of a node are names of the node. -/
theorem wildcardNames_of_get? {entries : Node} {key : String} {value : Value}
    (h : Fields.get? key entries = some value) {name : String} (hn : name ∈ value.wildcardNames) :
    name ∈ Value.wildcardNamesEntries entries := by
  induction entries with
  | nil => cases h
  | cons entry rest ih =>
    obtain ⟨k, v⟩ := entry
    rw [Value.wildcardNamesEntries]
    by_cases hk : k = key
    · rw [Fields.get?, if_pos hk] at h
      obtain rfl := Option.some.inj h
      exact List.mem_append_left _ (List.mem_append_right _ hn)
    · rw [Fields.get?, if_neg hk] at h
      exact List.mem_append_right _ (ih h)

theorem mem_keyNames_of_resolve {key name : String}
    (h : PatternKey.resolve key = .ok (.wildcard (some name))) : name ∈ keyNames key := by
  cases PatternKey.means_of_resolve h with
  | named hname =>
    have hempty : name.isEmpty = false := by simpa using hname
    rw [keyNames, Text.after?_eq_some_iff.2 rfl]
    simp [hempty]

theorem encodeTerm_of_resolve {key predicate : String}
    (h : PatternKey.resolve key = .ok (.property predicate)) :
    Literal.encodeTerm key = .ok predicate := by
  cases PatternKey.means_of_resolve h with
  | property _ _ hterm => exact hterm

theorem eq_optionalKey_of_resolve {key : String} (h : PatternKey.resolve key = .ok .optional) :
    key = PatternKey.optionalKey := by
  cases PatternKey.means_of_resolve h
  rfl

theorem ne_optionalKey_of_resolve {key : String} {kind : PatternKey}
    (h : PatternKey.resolve key = .ok kind) (hkind : kind ≠ .optional) :
    key ≠ PatternKey.optionalKey := by
  rintro rfl
  exact hkind (Except.ok.inj h).symm

/-! ## Identifiers -/

/-- The token of a subject that an identifier gives. -/
def identifierToken? : Option Value → Option String
  | some (.wildcard (some name)) => some ("?" ++ name)
  | some (.string s) => (Reference.normalize? s).map fun r => Literal.bracketed r.locator
  | some (.reference r) => some (Literal.bracketed r.locator)
  | some (.iri locator) => some (Literal.bracketed locator)
  | _ => none

/-- The variable in place of an identifier, if the caller named one. -/
def identifierNames : Option Value → List String
  | some (.wildcard (some name)) => ["?" ++ name]
  | _ => []

/-- The subject of the node with a number. -/
def subjectOf (number : Nat) (entries : Node) : String :=
  (identifierToken? (identifier? entries)).getD (Group.subjectVariable number)

/-- The node is identified by the token. -/
def Named (token : String) (entries : Node) : Prop :=
  identifierToken? (identifier? entries) = some token

instance (token : String) (entries : Node) : Decidable (Named token entries) :=
  inferInstanceAs (Decidable (_ = _))

/-- A node is identified by a named wildcard or by a locator. -/
theorem Named.cases {token : String} {entries : Node} (h : Named token entries) :
    (∃ name, identifier? entries = some (.wildcard (some name)) ∧ token = "?" ++ name) ∨
      ∃ locator, token = Literal.bracketed locator := by
  rw [Named] at h
  rcases hi : identifier? entries with _ | v
  · rw [hi] at h
    cases h
  · rw [hi] at h
    cases v with
    | wildcard name? =>
      cases name? with
      | none => cases h
      | some name =>
        obtain rfl := Option.some.inj h
        exact .inl ⟨name, rfl, rfl⟩
    | reference _ | iri _ =>
      obtain rfl := Option.some.inj h
      exact .inr ⟨_, rfl⟩
    | string s =>
      obtain ⟨r, -, rfl⟩ := Option.map_eq_some_iff.1 h
      exact .inr ⟨_, rfl⟩
    | null | boolean _ | integer _ | float _ | timestamp _ | term _ | node _ | list _
      | custom _ _ => cases h

/-! ## Optional branches that name a subject -/

namespace Value

mutual

/-- The branches that the value of an optional key gives, and those that they hold in turn. -/
def joined : Value → List Node
  | .node entries => entries :: joinedEntries entries
  | .list branches => joinedItems branches
  | _ => []

/-- The branches that several values of an optional key give. -/
def joinedItems : List Value → List Node
  | [] => []
  | branch :: rest => branch.joined ++ joinedItems rest

/-- The branches that are joined to a node by optional keys alone. -/
def joinedEntries : List (String × Value) → List Node
  | [] => []
  | (key, value) :: rest =>
    (if key = PatternKey.optionalKey then value.joined else []) ++ joinedEntries rest

end

end Value

/-- One of the branches is identified by the token. -/
def Joins (token : String) (branches : List Node) : Prop :=
  ∃ branch ∈ branches, Named token branch

instance (token : String) (branches : List Node) : Decidable (Joins token branches) :=
  inferInstanceAs (Decidable (∃ branch ∈ branches, Named token branch))

theorem Joins.left {token : String} {bs : List Node} (h : Joins token bs) (bs' : List Node) :
    Joins token (bs ++ bs') :=
  h.imp fun _ hb => ⟨List.mem_append_left bs' hb.1, hb.2⟩

theorem Joins.right {token : String} {bs' : List Node} (h : Joins token bs') (bs : List Node) :
    Joins token (bs ++ bs') :=
  h.imp fun _ hb => ⟨List.mem_append_right bs hb.1, hb.2⟩

/-- The tokens to be kept inside a branch: those from outside, and the identifier of the branch if
it joins another one that is identified by one of them. -/
def tokensInside (tokens : List String) (entries : Node) : List String :=
  if ∃ token ∈ tokens, Joins token (Value.joinedEntries entries) then
    tokens ++ (identifierToken? (identifier? entries)).toList
  else tokens

theorem mem_tokensInside {token : String} {tokens : List String} (h : token ∈ tokens)
    (entries : Node) : token ∈ tokensInside tokens entries := by
  rw [tokensInside]
  split
  · exact List.mem_append_left _ h
  · exact h

theorem Named.mem_tokensInside {token joined : String} {tokens : List String} {entries : Node}
    (h : Named token entries) (hjoined : joined ∈ tokens)
    (hjoins : Joins joined (Value.joinedEntries entries)) :
    token ∈ tokensInside tokens entries := by
  rw [Named] at h
  rw [tokensInside, if_pos ⟨joined, hjoined, hjoins⟩, h]
  exact List.mem_append_right tokens (List.mem_singleton_self token)

namespace Value

mutual

/-- Wherever in the value a node behind an edge joins a branch that is identified by one of
the tokens, the node is identified by it as well. -/
def Keeps (tokens : List String) : Value → Prop
  | .node entries =>
    (∀ token ∈ tokens, Joins token (joinedEntries entries) → Named token entries) ∧
      KeepsEntries tokens entries
  | .list items => KeepsItems tokens items
  | _ => True

/-- All of the values keep the tokens. -/
def KeepsItems (tokens : List String) : List Value → Prop
  | [] => True
  | item :: rest => item.Keeps tokens ∧ KeepsItems tokens rest

/-- All entries of the node keep the tokens. -/
def KeepsEntries (tokens : List String) : List (String × Value) → Prop
  | [] => True
  | (key, value) :: rest =>
    (if key = PatternKey.optionalKey then value.KeepsBranch tokens else value.Keeps tokens) ∧
      KeepsEntries tokens rest

/-- A branch, or a list of branches, keeps the tokens. -/
def KeepsBranch (tokens : List String) : Value → Prop
  | .node entries => KeepsEntries (tokensInside tokens entries) entries
  | .list branches => KeepsBranches tokens branches
  | _ => True

/-- All of the branches keep the tokens. -/
def KeepsBranches (tokens : List String) : List Value → Prop
  | [] => True
  | branch :: rest => branch.KeepsBranch tokens ∧ KeepsBranches tokens rest

end

end Value

/-- The branches of a list behind the first one keep the token. -/
def KeepsBehindFirst (token : String) : Value → Prop
  | .list (_ :: others) => Value.KeepsBranches [token] others
  | _ => True

/-- Whatever a node lists behind its first optional branch keeps the token. -/
def KeepsBehindBranch (token : String) : List (String × Value) → Prop
  | [] => True
  | (key, value) :: rest =>
    if key = PatternKey.optionalKey then
      match value with
      | .list [] => KeepsBehindBranch token rest
      | _ => KeepsBehindFirst token value ∧ Value.KeepsEntries [token] rest
    else KeepsBehindBranch token rest

theorem KeepsBehindBranch.of_ne {token key : String} {value : Value}
    {rest : List (String × Value)} (h : KeepsBehindBranch token ((key, value) :: rest))
    (hkey : key ≠ PatternKey.optionalKey) : KeepsBehindBranch token rest := by
  rw [KeepsBehindBranch.eq_def] at h
  simpa only [if_neg hkey] using h

/-- An empty list of branches is no branch yet. -/
theorem KeepsBehindBranch.of_optional {token : String} {value : Value}
    {rest : List (String × Value)}
    (h : KeepsBehindBranch token ((PatternKey.optionalKey, value) :: rest)) :
    (value = .list [] ∧ KeepsBehindBranch token rest) ∨
      (KeepsBehindFirst token value ∧ Value.KeepsEntries [token] rest) := by
  rw [KeepsBehindBranch.eq_def] at h
  simp only [if_true] at h
  split at h
  · exact .inl ⟨rfl, h⟩
  · exact .inr h

mutual

theorem wildcardNames_of_joined : ∀ (v : Value) {branch : Node}, branch ∈ v.joined →
    ∀ name ∈ Value.wildcardNamesEntries branch, name ∈ v.wildcardNames
  | .node entries, branch, hb, name, hn => by
    rw [Value.joined] at hb
    rw [Value.wildcardNames]
    rcases List.mem_cons.1 hb with rfl | hb
    · exact hn
    · exact wildcardNames_of_joinedEntries entries hb name hn
  | .list branches, branch, hb, name, hn => by
    rw [Value.joined] at hb
    rw [Value.wildcardNames]
    exact wildcardNames_of_joinedItems branches hb name hn
  | .null, _, hb, _, _ | .boolean _, _, hb, _, _ | .integer _, _, hb, _, _
  | .float _, _, hb, _, _ | .string _, _, hb, _, _ | .timestamp _, _, hb, _, _
  | .reference _, _, hb, _, _ | .term _, _, hb, _, _ | .iri _, _, hb, _, _
  | .wildcard _, _, hb, _, _ | .custom _ _, _, hb, _, _ => by
    simp [Value.joined] at hb

theorem wildcardNames_of_joinedItems : ∀ (vs : List Value) {branch : Node},
    branch ∈ Value.joinedItems vs →
    ∀ name ∈ Value.wildcardNamesEntries branch, name ∈ Value.wildcardNamesItems vs
  | [], branch, hb, name, hn => by
    cases hb
  | v :: rest, branch, hb, name, hn => by
    rw [Value.joinedItems] at hb
    rw [Value.wildcardNamesItems]
    rcases List.mem_append.1 hb with hb | hb
    · exact List.mem_append_left _ (wildcardNames_of_joined v hb name hn)
    · exact List.mem_append_right _ (wildcardNames_of_joinedItems rest hb name hn)

/-- The names of a joined branch are names of the node. -/
theorem wildcardNames_of_joinedEntries : ∀ (entries : List (String × Value)) {branch : Node},
    branch ∈ Value.joinedEntries entries →
    ∀ name ∈ Value.wildcardNamesEntries branch, name ∈ Value.wildcardNamesEntries entries
  | [], branch, hb, name, hn => by
    cases hb
  | (key, value) :: rest, branch, hb, name, hn => by
    rw [Value.joinedEntries] at hb
    rw [Value.wildcardNamesEntries]
    rcases List.mem_append.1 hb with hb | hb
    · split at hb
      · exact List.mem_append_left _ (List.mem_append_right _
          (wildcardNames_of_joined value hb name hn))
      · cases hb
    · exact List.mem_append_right _ (wildcardNames_of_joinedEntries rest hb name hn)

end

/-- The token identifies no node of an unambiguous pattern. -/
def Unnamed (token : String) : Prop :=
  ∀ entries, Unambiguous (Value.wildcardNamesEntries entries) → ¬ Named token entries

theorem Unnamed.not_joins {token : String} (h : Unnamed token) {entries : Node}
    (hnames : Unambiguous (Value.wildcardNamesEntries entries)) :
    ¬ Joins token (Value.joinedEntries entries) := by
  rintro ⟨branch, hb, hn⟩
  exact h branch (fun name hname => hnames name
    (wildcardNames_of_joinedEntries entries hb name hname)) hn

theorem unnamed_empty : Unnamed "" := by
  intro entries _ h
  rcases h.cases with ⟨name, -, heq⟩ | ⟨locator, heq⟩
  · have hlist := congrArg String.toList heq
    rw [String.toList_append] at hlist
    cases hlist
  · have hlist := congrArg String.toList heq
    rw [Literal.bracketed, String.toList_append, String.toList_append] at hlist
    cases hlist

end LinkedData
