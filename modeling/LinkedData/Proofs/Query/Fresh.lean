import LinkedData.Proofs.Query.Naming
import LinkedData.Query.Basic

/-!
# Fresh subject variables

Compiling numbers its nodes upwards, and makes the subject variable of a node from its number.
As long as no wildcard of the pattern can be taken for one, the subject variables that stand
anywhere in a group have numbers below the counter (`Group.Settled`), and what a step adds
has numbers from the counter up. This is an invariant of every part of compiling; along with
it goes a frame (`Group.Advances`): blocks are closed as often as they are opened, and the
nodes that were registered before stay as they are.
-/

namespace LinkedData

open Literal

/-! ## Tokens -/

/-- The token is no subject variable from the bound up. -/
def Settled (bound : Nat) (token : String) : Prop :=
  ∀ number, token = Group.subjectVariable number → number < bound

/-- The token is no subject variable below the bound. -/
def Fresh (bound : Nat) (token : String) : Prop :=
  ∀ number, token = Group.subjectVariable number → bound ≤ number

/-- The token is no subject variable. -/
def NoSubject (token : String) : Prop :=
  ∀ number, token ≠ Group.subjectVariable number

theorem Settled.mono {bound bound' : Nat} {token : String} (h : Settled bound token)
    (hle : bound ≤ bound') : Settled bound' token :=
  fun number heq => Nat.lt_of_lt_of_le (h number heq) hle

theorem Fresh.mono {bound bound' : Nat} {token : String} (h : Fresh bound' token)
    (hle : bound ≤ bound') : Fresh bound token :=
  fun number heq => Nat.le_trans hle (h number heq)

theorem NoSubject.settled {token : String} (h : NoSubject token) (bound : Nat) :
    Settled bound token :=
  fun number heq => absurd heq (h number)

theorem NoSubject.fresh {token : String} (h : NoSubject token) (bound : Nat) :
    Fresh bound token :=
  fun number heq => absurd heq (h number)

theorem settled_subjectVariable {number bound : Nat} (h : number < bound) :
    Settled bound (Group.subjectVariable number) :=
  fun _ heq => subjectVariable_injective heq ▸ h

theorem fresh_subjectVariable {number bound : Nat} (h : bound ≤ number) :
    Fresh bound (Group.subjectVariable number) :=
  fun _ heq => subjectVariable_injective heq ▸ h

theorem Fresh.ne {bound number : Nat} {token : String} (h : Fresh bound token)
    (hlt : number < bound) : token ≠ Group.subjectVariable number :=
  fun heq => absurd (h number heq) (Nat.not_le_of_lt hlt)

theorem noSubject_of_not_isVariable {token : String} (h : isVariable token = false) :
    NoSubject token :=
  fun number => ne_subjectVariable h number

/-- A variable with another letter in front of its number is no subject variable. -/
theorem noSubject_append {mark : String} (h : Text.Apart mark "?S_") (rest : String) :
    NoSubject (mark ++ rest) :=
  fun number => h.append_ne_append rest (toString number)

theorem noSubject_predicateVariable (node : Nat) : NoSubject (Group.predicateVariable node) :=
  noSubject_append (by decide) _

theorem noSubject_objectVariable (node : Nat) : NoSubject (Group.objectVariable node) :=
  noSubject_append (by decide) _

theorem noSubject_wildcardVariable (number : Nat) : NoSubject (Group.wildcardVariable number) :=
  noSubject_append (by decide) _

theorem noSubject_filterVariable (node number : Nat) :
    NoSubject (Group.filterVariable node number) := by
  rw [Group.filterVariable, String.append_assoc, String.append_assoc]
  exact noSubject_append (by decide) _

theorem noSubject_named {name : String} (h : ¬ NumbersSubject name) : NoSubject ("?" ++ name) := by
  intro number heq
  refine h ⟨number, (String.append_right_inj "?").1 ?_⟩
  rw [heq, ← String.append_assoc]
  rfl

/-- The token that an identifier gives is no subject variable. -/
theorem noSubject_identifier {entries : Node} {token : String}
    (hnames : Unambiguous (Value.wildcardNamesEntries entries)) (h : Named token entries) :
    NoSubject token := by
  rcases h.cases with ⟨name, hi, rfl⟩ | ⟨locator, rfl⟩
  · refine noSubject_named (hnames name (wildcardNames_of_get? hi ?_))
    rw [Value.wildcardNames]
    exact List.mem_singleton_self name
  · exact noSubject_of_not_isVariable (not_isVariable_bracketed locator)

theorem unnamed_subjectVariable (number : Nat) : Unnamed (Group.subjectVariable number) :=
  fun _ hnames h => noSubject_identifier hnames h number rfl

/-! ## Groups -/

/-- No subject variable of the triple has a number from the bound up. -/
structure Triple.Settled (bound : Nat) (t : Triple) : Prop where
  /-- the subject -/
  subject : LinkedData.Settled bound t.subject
  /-- the property -/
  predicate : LinkedData.Settled bound t.predicate
  /-- the value -/
  object : LinkedData.Settled bound t.object

/-- The three tokens. -/
def Triple.tokens (t : Triple) : List String :=
  [t.subject, t.predicate, t.object]

theorem Triple.mem_tokens {t : Triple} {token : String} :
    token ∈ t.tokens ↔ token = t.subject ∨ token = t.predicate ∨ token = t.object := by
  rw [Triple.tokens, List.mem_cons, List.mem_cons, List.mem_singleton]

/-- No subject variable of the clause has a number from the bound up. -/
def Clause.Settled (bound : Nat) : Clause → Prop
  | .triple t => t.Settled bound
  | .filter _ => True

theorem Triple.Settled.mono {bound bound' : Nat} {t : Triple} (h : t.Settled bound)
    (hle : bound ≤ bound') : t.Settled bound' :=
  ⟨h.subject.mono hle, h.predicate.mono hle, h.object.mono hle⟩

theorem Clause.Settled.mono {bound bound' : Nat} {c : Clause} (h : c.Settled bound)
    (hle : bound ≤ bound') : c.Settled bound' := by
  cases c with
  | triple t => exact Triple.Settled.mono h hle
  | filter _ => trivial

theorem settled_replaceToken {bound : Nat} {new token : String} (hnew : Settled bound new)
    (h : Settled bound token) (old : String) :
    Settled bound (Triple.replaceToken old new token) := by
  rw [Triple.replaceToken]
  split
  · exact hnew
  · exact h

theorem Clause.Settled.substitute {bound : Nat} {new : String} {c : Clause} (h : c.Settled bound)
    (hnew : LinkedData.Settled bound new) (old : String) :
    (c.substitute old new).Settled bound := by
  cases c with
  | triple t =>
    exact ⟨settled_replaceToken hnew h.subject old, settled_replaceToken hnew h.predicate old,
      settled_replaceToken hnew h.object old⟩
  | filter _ => trivial

theorem mem_insertNew {item token : String} {items : List String} :
    token ∈ insertNew item items ↔ token = item ∨ token ∈ items := by
  rw [insertNew]
  split
  · rename_i hc
    constructor
    · exact .inr
    · rintro (rfl | h)
      · exact List.contains_iff_mem.1 hc
      · exact h
  · rw [List.mem_append, List.mem_singleton, or_comm]

/-- Adding what is not there yet, and keeping what is wanted. -/
theorem filter_insertNew_pos {item : String} {p : String → Bool} (h : p item = true)
    (items : List String) : (insertNew item items).filter p = insertNew item (items.filter p) := by
  by_cases hin : item ∈ items
  · simp [insertNew, hin, h]
  · simp [insertNew, hin, h]

theorem filter_insertNew_neg {item : String} {p : String → Bool} (h : p item = false)
    (items : List String) : (insertNew item items).filter p = items.filter p := by
  by_cases hin : item ∈ items
  · simp [insertNew, hin]
  · simp [insertNew, hin, h]

/-- What is added does not count among the others that are wanted. -/
theorem filter_insertNew_others (p : String → Bool) (item : String) (items : List String) :
    (insertNew item items).filter (fun token => p token && token != item) =
      (items.filter p).filter (· != item) := by
  rw [filter_insertNew_neg (by simp), List.filter_filter]
  exact List.filter_congr fun _ _ => Bool.and_comm _ _

namespace Group

/-- Every subject variable in the open block and among the described subjects belongs to a
node that has its number already, and so does every registered node. -/
structure Settled (g : Group) : Prop where
  /-- the open block -/
  buffer : ∀ c ∈ g.optionalBuffer, c.Settled g.nodeCounter
  /-- the described subjects -/
  projection : ∀ token ∈ g.projection, LinkedData.Settled g.nodeCounter token
  /-- the registered nodes -/
  nodes : ∀ entry ∈ g.nodes, entry.1 < g.nodeCounter

theorem settled_empty : empty.Settled where
  buffer := fun _ h => absurd h List.not_mem_nil
  projection := fun _ h => absurd h List.not_mem_nil
  nodes := fun _ h => absurd h List.not_mem_nil

theorem lookupNumber?_setNumber {α : Type} (number : Nat) (value : α) (table : List (Nat × α)) :
    lookupNumber? number (setNumber number value table) = some value := by
  induction table with
  | nil => exact if_pos rfl
  | cons entry rest ih =>
    obtain ⟨key, old⟩ := entry
    by_cases h : key = number
    · rw [setNumber, if_pos h]
      exact if_pos h
    · rw [setNumber, if_neg h, lookupNumber?, if_neg h]
      exact ih

theorem lookupNumber?_setNumber_of_ne {α : Type} {k number : Nat} (h : k ≠ number) (value : α)
    (table : List (Nat × α)) :
    lookupNumber? k (setNumber number value table) = lookupNumber? k table := by
  induction table with
  | nil => exact if_neg (Ne.symm h)
  | cons entry rest ih =>
    obtain ⟨key, old⟩ := entry
    by_cases hkey : key = number
    · subst hkey
      rw [setNumber, if_pos rfl, lookupNumber?, lookupNumber?, if_neg (Ne.symm h),
        if_neg (Ne.symm h)]
    · rw [setNumber, if_neg hkey, lookupNumber?, lookupNumber?, ih]

theorem lookupNumber?_filter {α : Type} {k number : Nat} (h : k ≠ number)
    (table : List (Nat × α)) :
    lookupNumber? k (table.filter (·.1 != number)) = lookupNumber? k table := by
  induction table with
  | nil => rfl
  | cons entry rest ih =>
    obtain ⟨key, value⟩ := entry
    by_cases hkey : key = number
    · rw [List.filter_cons_of_neg (by simpa using hkey), ih, lookupNumber?,
        if_neg (fun hk => h (hk.symm.trans hkey))]
    · rw [List.filter_cons_of_pos (by simpa using hkey), lookupNumber?, lookupNumber?, ih]

theorem mem_setNumber {α : Type} {number : Nat} {value : α} {table : List (Nat × α)}
    {entry : Nat × α} (h : entry ∈ setNumber number value table) :
    entry.1 = number ∨ entry ∈ table := by
  induction table with
  | nil =>
    obtain rfl := List.mem_singleton.1 h
    exact .inl rfl
  | cons first rest ih =>
    obtain ⟨key, old⟩ := first
    rw [setNumber] at h
    split at h
    · rename_i hkey
      rcases List.mem_cons.1 h with rfl | h
      · exact .inl hkey
      · exact .inr (List.mem_cons_of_mem _ h)
    · rcases List.mem_cons.1 h with rfl | h
      · exact .inr List.mem_cons_self
      · rcases ih h with hnew | hold
        · exact .inl hnew
        · exact .inr (List.mem_cons_of_mem _ hold)

/-- What a completed part of compiling does to a group. -/
structure Advances (g g' : Group) : Prop where
  /-- numbers are not given back -/
  counter : g.nodeCounter ≤ g'.nodeCounter
  /-- every block that was opened is closed -/
  depth : g'.optionalDepth = g.optionalDepth
  /-- earlier nodes stay as they are -/
  nodes : ∀ k < g.nodeCounter, lookupNumber? k g'.nodes = lookupNumber? k g.nodes
  /-- subject variables stay fresh -/
  settled : g.Settled → g'.Settled

theorem Advances.refl (g : Group) : g.Advances g :=
  ⟨Nat.le_refl _, rfl, fun _ _ => rfl, id⟩

theorem Advances.trans {g g' g'' : Group} (h : g.Advances g') (h' : g'.Advances g'') :
    g.Advances g'' where
  counter := Nat.le_trans h.counter h'.counter
  depth := h'.depth.trans h.depth
  nodes := fun k hk => (h'.nodes k (Nat.lt_of_lt_of_le hk h.counter)).trans (h.nodes k hk)
  settled := fun hg => h'.settled (h.settled hg)

/-! ### Single steps -/

theorem advances_nextNodeId (g : Group) : g.Advances g.nextNodeId.2 where
  counter := Nat.le_succ _
  depth := rfl
  nodes := fun _ _ => rfl
  settled := fun hg =>
    ⟨fun c hc => (hg.buffer c hc).mono (Nat.le_succ _),
      fun token ht => (hg.projection token ht).mono (Nat.le_succ _),
      fun entry he => Nat.lt_succ_of_lt (hg.nodes entry he)⟩

theorem advances_namedVariable (g : Group) (name : String) : g.Advances (g.namedVariable name).2 :=
  ⟨Nat.le_refl _, rfl, fun _ _ => rfl, fun hg => ⟨hg.buffer, hg.projection, hg.nodes⟩⟩

theorem advances_freshFilterVariable (g : Group) (node : Nat) :
    g.Advances (g.freshFilterVariable node).2 :=
  ⟨Nat.le_refl _, rfl, fun _ _ => rfl, fun hg => ⟨hg.buffer, hg.projection, hg.nodes⟩⟩

theorem advances_append {g : Group} {clauses : List Clause}
    (h : ∀ c ∈ clauses, c.Settled g.nodeCounter) : g.Advances (g.append clauses) := by
  rw [append]
  split
  · refine ⟨Nat.le_refl _, rfl, fun _ _ => rfl, fun hg => ⟨?_, hg.projection, hg.nodes⟩⟩
    intro c hc
    rcases List.mem_append.1 hc with hc | hc
    · exact hg.buffer c hc
    · exact h c hc
  · exact ⟨Nat.le_refl _, rfl, fun _ _ => rfl, fun hg => ⟨hg.buffer, hg.projection, hg.nodes⟩⟩

/-- A node begins: it takes the next number and is registered under its subject. -/
def opened (g : Group) (entries : Node) (inverse : Bool) : Group :=
  let subject := subjectOf g.nodeCounter entries
  { g with
    nodeCounter := g.nodeCounter + 1
    tupleVariables := Query.merge g.tupleVariables (identifierNames (identifier? entries))
    projection := if inverse then g.projection else insertNew subject g.projection
    nodes := setNumber g.nodeCounter subject g.nodes }

/-- A node that begins adds at most its subject to the projection. -/
theorem mem_opened_projection {g : Group} {entries : Node} {inverse : Bool} {token : String}
    (h : token ∈ (g.opened entries inverse).projection) :
    token = subjectOf g.nodeCounter entries ∨ token ∈ g.projection := by
  cases inverse with
  | true => exact .inr h
  | false => exact mem_insertNew.1 h

/-- A node that was just numbered is registered under a settled subject. -/
theorem advances_registerNode (g : Group) {id : Option String}
    (hid : ∀ token, id = some token → NoSubject token) (inverse : Bool) :
    g.Advances (g.nextNodeId.2.registerNode id g.nodeCounter inverse).2 where
  counter := Nat.le_succ _
  depth := rfl
  nodes := fun k hk => lookupNumber?_setNumber_of_ne (Nat.ne_of_lt hk) _ _
  settled := by
    intro hg
    have hnext := (advances_nextNodeId g).settled hg
    refine ⟨hnext.buffer, ?_, ?_⟩
    · intro token ht
      cases inverse with
      | true => exact hnext.projection token ht
      | false =>
        rcases mem_insertNew.1 ht with rfl | ht
        · cases id with
          | none => exact settled_subjectVariable (Nat.lt_succ_self _)
          | some token => exact (hid token rfl).settled _
        · exact hnext.projection token ht
    · intro entry he
      rcases mem_setNumber he with hnew | hold
      · rw [hnew]
        exact Nat.lt_succ_self _
      · exact hnext.nodes entry hold

/-- A branch is handed over from its own subject to that of the node that holds it. -/
def handedOver (g : Group) (node : Nat) (subject parent : String) : Group :=
  { g with
    nodes := g.nodes.filter (·.1 != node)
    projection := g.projection.filter (· != subject)
    optionalBuffer := g.optionalBuffer.map (Clause.substitute subject parent) }

theorem demote_eq_handedOver {g : Group} {node : Nat} {subject : String}
    (h : lookupNumber? node g.nodes = some subject) (parent : String) :
    g.demote node parent = g.handedOver node subject parent := by
  rw [demote, h]
  rfl

/-- Demoting a node leaves all other nodes. -/
theorem lookupNumber?_demote {g : Group} {k node : Nat} (h : k ≠ node) (parent : String) :
    lookupNumber? k (g.demote node parent).nodes = lookupNumber? k g.nodes := by
  rw [demote]
  split
  · rfl
  · exact lookupNumber?_filter h _

theorem settled_demote {g : Group} (hg : g.Settled) (node : Nat) {parent : String}
    (hparent : LinkedData.Settled g.nodeCounter parent) : (g.demote node parent).Settled := by
  rw [demote]
  split
  · exact hg
  · refine ⟨?_, ?_, ?_⟩
    · intro c hc
      obtain ⟨c', hc', rfl⟩ := List.mem_map.1 hc
      exact (hg.buffer c' hc').substitute hparent _
    · exact fun token ht => hg.projection token (List.mem_filter.1 ht).1
    · exact fun entry he => hg.nodes entry (List.mem_filter.1 he).1

theorem settled_exitOptional {g : Group} (hg : g.Settled) : g.exitOptional.Settled := by
  rw [exitOptional]
  split
  · exact ⟨fun _ h => absurd h List.not_mem_nil, hg.projection, hg.nodes⟩
  · exact ⟨hg.buffer, hg.projection, hg.nodes⟩

@[simp] theorem demote_nodeCounter (g : Group) (node : Nat) (parent : String) :
    (g.demote node parent).nodeCounter = g.nodeCounter := by
  rw [demote]
  split <;> rfl

@[simp] theorem demote_optionalDepth (g : Group) (node : Nat) (parent : String) :
    (g.demote node parent).optionalDepth = g.optionalDepth := by
  rw [demote]
  split <;> rfl

@[simp] theorem exitOptional_nodeCounter (g : Group) :
    g.exitOptional.nodeCounter = g.nodeCounter := by
  rw [exitOptional]
  split <;> rfl

@[simp] theorem exitOptional_nodes (g : Group) : g.exitOptional.nodes = g.nodes := by
  rw [exitOptional]
  split <;> rfl

@[simp] theorem exitOptional_optionalDepth (g : Group) :
    g.exitOptional.optionalDepth = g.optionalDepth - 1 := by
  rw [exitOptional]
  split <;> rfl

/-- A branch: a block is opened, a node from the counter up is compiled in it and demoted,
and the block is closed. -/
theorem advances_branch {g g' : Group} (h : g.enterOptional.Advances g') {node : Nat}
    (hnode : g.nodeCounter ≤ node) {parent : String}
    (hparent : LinkedData.Settled g.nodeCounter parent) :
    g.Advances (g'.demote node parent).exitOptional where
  counter := by
    rw [exitOptional_nodeCounter, demote_nodeCounter]
    exact h.counter
  depth := by
    rw [exitOptional_optionalDepth, demote_optionalDepth, h.depth]
    rfl
  nodes := by
    intro k hk
    rw [exitOptional_nodes, lookupNumber?_demote (by omega)]
    exact h.nodes k hk
  settled := by
    intro hg
    have hopen : g.enterOptional.Settled := ⟨hg.buffer, hg.projection, hg.nodes⟩
    exact settled_exitOptional (settled_demote (h.settled hopen) node (hparent.mono h.counter))

end Group

end LinkedData
