import LinkedData.Proofs.Query.Header
import LinkedData.Proofs.Query.Taken

/-!
# Named variables and minted variables

A wildcard can be given any name, and the variables that compiling makes are written like named
ones. So a pattern whose caller hits on the name of a variable that the pattern gets anyway means
something else than it says: `"?S_0"` in a pattern without an identifier is the node itself.

`Pattern.named_apart_from_minted` tells exactly which named variables are taken for minted ones,
and that names which are not spelled like a minted variable (`Reserved`) are safe.
-/

namespace LinkedData

/-- The name is spelled like that of a minted variable. -/
def Reserved (name : String) : Prop :=
  ∃ v : Variable, "?" ++ name = v.token

/-- A name is safe unless an underscore comes second. -/
theorem not_reserved_of_second {name : String} (h : name.toList[1]? ≠ some '_') :
    ¬ Reserved name := by
  rintro ⟨v, hv⟩
  have hlist := congrArg String.toList hv
  rw [String.toList_append, v.toList_token] at hlist
  obtain ⟨-, htail⟩ := List.cons.inj hlist
  apply h
  have htail : name.toList = v.letter :: '_' :: v.digits := htail
  rw [htail]
  rfl

namespace Pattern

/-! ## Named variables come from wildcards -/

theorem mem_names_identifier {entries : Node} {token : String}
    (h : token ∈ identifierNames (identifier? entries)) :
    ∃ name ∈ Value.wildcardNamesEntries entries, token = "?" ++ name := by
  rw [identifierNames.eq_def] at h
  split at h
  · rename_i name hid
    obtain rfl := List.mem_singleton.1 h
    refine ⟨name, wildcardNames_of_get? hid ?_, rfl⟩
    rw [Value.wildcardNames]
    exact List.mem_singleton_self name
  · cases h

theorem mem_names_key {key : String} {kind : PatternKey} (hkind : PatternKey.resolve key = .ok kind)
    {token : String} (h : token ∈ kind.trail.names) :
    ∃ name ∈ keyNames key, token = "?" ++ name := by
  cases kind with
  | wildcard name? =>
    cases name? with
    | none => cases h
    | some name =>
      obtain rfl := List.mem_singleton.1 h
      exact ⟨name, mem_keyNames_of_resolve hkind, rfl⟩
  | id | optional | inverse _ | operator _ | property _ => cases h

mutual

theorem mem_names_trail (codec : Codec) : ∀ (v : Value) ⦃outside number : Nat⦄ ⦃place : Place⦄
    ⦃token : String⦄, token ∈ (trail codec outside number place v).names →
    ∃ name ∈ v.wildcardNames, token = "?" ++ name
  | .node entries, outside, number, place, token, h => by
    rw [trail] at h
    rw [Value.wildcardNames]
    split at h
    · cases h
    · rw [names_nodeTrail] at h
      rcases List.mem_append.1 h with h | h
      · exact mem_names_identifier h
      · exact mem_names_trailEntries codec entries h
  | .list items, outside, number, place, token, h => by
    rw [trail] at h
    rw [Value.wildcardNames]
    exact mem_names_trailItems codec items h
  | .wildcard (some name), outside, number, place, token, h => by
    rw [trail] at h
    obtain rfl := List.mem_singleton.1 h
    rw [Value.wildcardNames]
    exact ⟨name, List.mem_singleton_self name, rfl⟩
  | .wildcard none, _, _, _, _, h => by
    rw [trail] at h
    cases h
  | .null, _, _, _, _, h | .boolean _, _, _, _, _, h | .integer _, _, _, _, _, h
  | .float _, _, _, _, _, h | .string _, _, _, _, _, h | .timestamp _, _, _, _, _, h
  | .reference _, _, _, _, _, h | .term _, _, _, _, _, h | .iri _, _, _, _, _, h
  | .custom _ _, _, _, _, _, h => by
    cases h

theorem mem_names_trailItems (codec : Codec) : ∀ (items : List Value) ⦃outside number : Nat⦄
    ⦃place : Place⦄ ⦃token : String⦄, token ∈ (trailItems codec outside number place items).names →
    ∃ name ∈ Value.wildcardNamesItems items, token = "?" ++ name
  | [], _, _, _, _, h => by
    cases h
  | item :: rest, outside, number, place, token, h => by
    rw [trailItems, Trail.names_append] at h
    rw [Value.wildcardNamesItems]
    rcases List.mem_append.1 h with h | h
    · obtain ⟨name, hname, heq⟩ := mem_names_trail codec item h
      exact ⟨name, List.mem_append_left _ hname, heq⟩
    · obtain ⟨name, hname, heq⟩ := mem_names_trailItems codec rest h
      exact ⟨name, List.mem_append_right _ hname, heq⟩

/-- The named variables of a pattern are those of its wildcards. -/
theorem mem_names_trailEntries (codec : Codec) : ∀ (entries : List (String × Value))
    ⦃depth number : Nat⦄ ⦃subject token : String⦄,
    token ∈ (trailEntries codec depth number subject entries).names →
    ∃ name ∈ Value.wildcardNamesEntries entries, token = "?" ++ name
  | [], _, _, _, _, h => by
    cases h
  | (key, value) :: rest, depth, number, subject, token, h => by
    rw [trailEntries_cons, Trail.names_append] at h
    rw [Value.wildcardNamesEntries]
    rcases List.mem_append.1 h with h | h
    · rw [trailEntry] at h
      split at h
      · rename_i kind hkind
        split at h
        · rw [Trail.names_append] at h
          rcases List.mem_append.1 h with h | h
          · obtain ⟨name, hname, heq⟩ := mem_names_key hkind h
            exact ⟨name, List.mem_append_left _ (List.mem_append_left _ hname), heq⟩
          · obtain ⟨name, hname, heq⟩ := mem_names_trail codec value h
            exact ⟨name, List.mem_append_left _ (List.mem_append_right _ hname), heq⟩
        · cases h
      · cases h
    · obtain ⟨name, hname, heq⟩ := mem_names_trailEntries codec rest h
      exact ⟨name, List.mem_append_right _ hname, heq⟩

end

/-! ## One pattern -/

variable {check : RegexCheck} {codec : Codec} {pattern : Node} {g : Group}

/-- A pattern that compiles gets the variables of the walk. -/
theorem performs_of_compile (h : compile check codec pattern = .ok g) :
    ∃ (history : Group.History) (compiled : CompiledNode),
      Performs (compileInto check codec pattern) .empty history (.ok compiled) g ∧
      history.minted .empty = (variablesOf [pattern]).map Variable.token := by
  obtain ⟨history, made, r, g', hperforms, hminted, -, hok⟩ :=
    takes_compileInto check codec pattern .empty
  rw [compile, hperforms.run] at h
  cases r with
  | error e => cases h
  | ok compiled =>
    obtain rfl := Except.ok.inj h
    refine ⟨history, compiled, hperforms, ?_⟩
    have hmade : minted 0 (.node pattern) ⟨0, fun _ => 0⟩ = (made, g'.supply) := hok compiled rfl
    rw [hminted, variablesOf, mintedEach, mintedEach, Taking.andThen_nothing, hmade]

/-- **Named and minted variables.** When a pattern compiles, a variable that its caller named is
also one that compiling made exactly if it is written like one of the variables of the walk over
the pattern. So the two are apart if no wildcard has a reserved name. -/
theorem named_apart_from_minted (h : compile check codec pattern = .ok g) :
    ∃ (history : Group.History) (compiled : CompiledNode),
      Performs (compileInto check codec pattern) .empty history (.ok compiled) g ∧
      (∀ token ∈ g.tupleVariables,
        (token ∈ history.minted .empty ↔ ∃ v ∈ variablesOf [pattern], token = v.token)) ∧
      ((∀ name ∈ Value.wildcardNamesEntries pattern, ¬ Reserved name) →
        ∀ token ∈ g.tupleVariables, token ∉ history.minted .empty) := by
  obtain ⟨history, compiled, hperforms, hminted⟩ := performs_of_compile h
  have hiff : ∀ token, token ∈ history.minted .empty ↔
      ∃ v ∈ variablesOf [pattern], token = v.token := by
    intro token
    rw [hminted, List.mem_map]
    simp only [eq_comm]
  refine ⟨history, compiled, hperforms, fun token _ => hiff token, ?_⟩
  intro hreserved token htoken hmade
  rw [tupleVariables_of_compile h, List.mem_eraseDups] at htoken
  obtain ⟨name, hname, rfl⟩ := mem_names_trail codec (.node pattern) htoken
  obtain ⟨v, -, hv⟩ := (hiff _).1 hmade
  rw [Value.wildcardNames] at hname
  exact hreserved name hname ⟨v, hv⟩

/-- A pattern whose wildcards have no reserved names. -/
def datedPattern : Node :=
  [("@id", .wildcard (some "who")), ("?rel", .wildcard none),
    ("born", .node [("$gt", .integer 1900)])]

theorem named_apart_from_minted_dated :
    (∀ name ∈ Value.wildcardNamesEntries datedPattern, ¬ Reserved name) ∧
    ∃ g history compiled, compile .lenient .empty datedPattern = .ok g ∧
      Performs (compileInto .lenient .empty datedPattern) .empty history (.ok compiled) g ∧
      g.tupleVariables = ["?who", "?rel"] ∧
      ∀ token ∈ g.tupleVariables, token ∉ history.minted .empty := by
  have hnames : ∀ name ∈ Value.wildcardNamesEntries datedPattern, ¬ Reserved name := by
    have hsecond : ∀ name ∈ Value.wildcardNamesEntries datedPattern,
        name.toList[1]? ≠ some '_' := by decide +kernel
    exact fun name hname => not_reserved_of_second (hsecond name hname)
  obtain ⟨g, hg, hvariables⟩ := compiles_of_any .lenient .empty datedPattern
    (p := fun g => g.tupleVariables = ["?who", "?rel"]) (by decide +kernel)
  obtain ⟨history, compiled, hperforms, -, hapart⟩ := named_apart_from_minted hg
  exact ⟨hnames, g, history, compiled, hg, hperforms, hvariables, hapart hnames⟩

/-- A name can be taken for a minted variable: the node and the value of its edge, which the
caller named, become the same variable. -/
theorem mints_variable_of_caller :
    ∃ g history compiled, compile .lenient .empty [("name", .wildcard (some "S_0"))] = .ok g ∧
      Performs (compileInto .lenient .empty [("name", .wildcard (some "S_0"))]) .empty history
        (.ok compiled) g ∧
      "?S_0" ∈ g.tupleVariables ∧ "?S_0" ∈ history.minted .empty ∧
      g.required = [.triple ⟨"?S_0", ":name", "?S_0"⟩] := by
  obtain ⟨g, hg, hvariables, hrequired⟩ :=
    compiles_of_any .lenient .empty [("name", .wildcard (some "S_0"))]
      (p := fun g => "?S_0" ∈ g.tupleVariables ∧
        g.required = [.triple ⟨"?S_0", ":name", "?S_0"⟩]) (by decide +kernel)
  obtain ⟨history, compiled, hperforms, hminted⟩ := performs_of_compile hg
  refine ⟨g, history, compiled, hg, hperforms, hvariables, ?_, hrequired⟩
  rw [hminted]
  decide +kernel

end Pattern

end LinkedData
