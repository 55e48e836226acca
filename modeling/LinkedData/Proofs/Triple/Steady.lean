import LinkedData.Proofs.Triple.Composed
import LinkedData.Proofs.Triple.Identified

/-!
# Trees with identifiers

If all nodes of a tree have identifiers, encoding it mints nothing and does not depend on what was
minted before (`Steady`). So its parts can be looked at one by one: the triples of a node are made
up of what its properties add, and those of a property of what the elements of its list add
(`Contributes`).
-/

namespace LinkedData

/-- No key comes twice in a node, and every node has an identifier other than the null. -/
def Value.Identified (v : Value) : Prop :=
  ∀ entries ∈ v.preorder, entries.Distinct ∧ isUnidentified entries = false

instance (v : Value) : Decidable v.Identified :=
  inferInstanceAs (Decidable (∀ entries ∈ v.preorder, _))

namespace Value

theorem identified_node_iff {entries : Node} : (Value.node entries).Identified ↔
    (entries.Distinct ∧ isUnidentified entries = false) ∧
      ∀ edge ∈ edges entries, edge.2.Identified := by
  rw [Identified, preorder, List.forall_mem_cons, preorderEntries_eq, List.forall_mem_flatMap]
  rfl

theorem identified_list_iff {items : List Value} :
    (Value.list items).Identified ↔ ∀ item ∈ items, item.Identified := by
  rw [Identified, preorder, preorderItems_eq, List.forall_mem_flatMap]
  rfl

end Value

/-! ## Computations that mint nothing -/

section

variable {α β : Type}

/-- The computation succeeds with the result from every state, and leaves the state as it is. -/
def Settles (x : Minting α) (a : α) : Prop :=
  ∀ m, Yields x m a m

/-- If the computation succeeds at all, it mints nothing and its result does not depend on what was
minted before. -/
def Steady (x : Minting α) : Prop :=
  ∀ ⦃m : Mint⦄ ⦃a : α⦄ ⦃m' : Mint⦄, Yields x m a m' → m' = m ∧ Settles x a

theorem settles_pure_iff {a b : α} : Settles (pure a : Minting α) b ↔ b = a :=
  ⟨fun h => (Yields.pure_iff.1 (h ⟨.countingFrom 0, []⟩)).1, fun h _ => Yields.pure_iff.2 ⟨h, rfl⟩⟩

theorem settles_lift_iff {r : Except Error α} {a : α} :
    Settles (Minting.lift r) a ↔ r = .ok a :=
  ⟨fun h => (Yields.minting_lift_iff.1 (h ⟨.countingFrom 0, []⟩)).1,
    fun h _ => Yields.minting_lift_iff.2 ⟨h, rfl⟩⟩

theorem not_settles_throw {e : Error} {a : α} : ¬ Settles (throw e : Minting α) a :=
  fun h => Yields.throw_iff.1 (h ⟨.countingFrom 0, []⟩)

theorem steady_pure (a : α) : Steady (pure a : Minting α) := by
  intro m b m' h
  obtain ⟨rfl, rfl⟩ := Yields.pure_iff.1 h
  exact ⟨rfl, settles_pure_iff.2 rfl⟩

theorem steady_lift (r : Except Error α) : Steady (Minting.lift r) := by
  intro m a m' h
  obtain ⟨hr, rfl⟩ := Yields.minting_lift_iff.1 h
  exact ⟨rfl, settles_lift_iff.2 hr⟩

theorem steady_throw (e : Error) : Steady (throw e : Minting α) :=
  fun _ _ _ h => (Yields.throw_iff.1 h).elim

theorem Steady.bind {x : Minting α} {f : α → Minting β} (hx : Steady x) (hf : ∀ a, Steady (f a)) :
    Steady (x >>= f) := by
  intro m b m' h
  obtain ⟨a, m₁, ha, hb⟩ := Yields.bind_iff.1 h
  obtain ⟨rfl, hsettles⟩ := hx ha
  obtain ⟨rfl, hsettles'⟩ := hf a hb
  exact ⟨rfl, fun n => Yields.bind_iff.2 ⟨a, n, hsettles n, hsettles' n⟩⟩

theorem steady : Compositional fun _ x => Steady x :=
  ⟨steady_pure, steady_throw, Steady.bind⟩

theorem Steady.settles_bind_iff {x : Minting α} (hx : Steady x) {f : α → Minting β} {b : β} :
    Settles (x >>= f) b ↔ ∃ a, Settles x a ∧ Settles (f a) b := by
  constructor
  · intro h
    obtain ⟨a, _, ha, -⟩ := Yields.bind_iff.1 (h ⟨.countingFrom 0, []⟩)
    obtain ⟨-, hsettles⟩ := hx ha
    refine ⟨a, hsettles, fun m => ?_⟩
    -- from every state the first part has this result
    obtain ⟨_, _, ha', hb⟩ := Yields.bind_iff.1 (h m)
    obtain ⟨rfl, rfl⟩ := Yields.unique (hsettles m) ha'
    exact hb
  · rintro ⟨a, ha, hb⟩ m
    exact Yields.bind_iff.2 ⟨a, m, ha m, hb m⟩

end

namespace Triple

variable {codec : Codec}

theorem steady_subjectOf {entries : Node} (h : isUnidentified entries = false) :
    Steady (subjectOf (identifier? entries)) := by
  intro m subject m' hsubject
  rcases subjectOf_cases hsubject with ⟨hneeds, -⟩ | ⟨-, rfl, hsame⟩
  · rw [h] at hneeds
    cases hneeds
  · exact ⟨rfl, hsame⟩

theorem steady_encodeObject {key : String} {v : Value} (h : v.Identified) :
    Steady (encodeObject codec key v) :=
  composed_encodeObject steady fun entries hentries => steady_subjectOf (h entries hentries).2

theorem steady_encodeItems {subject predicate key : String} {items : List Value}
    (h : ∀ item ∈ items, item.Identified) :
    Steady (encodeItems codec subject predicate key items) :=
  composed_encodeItems steady fun item hitem entries hentries =>
    steady_subjectOf (h item hitem entries hentries).2

theorem steady_encodeProperty {subject predicate key : String} {v : Value} (h : v.Identified) :
    Steady (encodeProperty codec subject predicate key v) :=
  composed_encodeProperty steady fun entries hentries => steady_subjectOf (h entries hentries).2

theorem steady_encodeEntries {subject : String} {entries : List (String × Value)}
    (h : ∀ edge ∈ edges entries, edge.2.Identified) :
    Steady (encodeEntries codec subject entries) :=
  composed_encodeEntries steady fun edge hedge below hbelow =>
    steady_subjectOf (h edge hedge below hbelow).2

/-! ## What the parts contribute -/

/-- What the parts of a node emit, together. -/
def Emitted.concat (parts : List Emitted) : Emitted :=
  ⟨parts.flatMap Emitted.nested, parts.flatMap Emitted.own⟩

section

variable {ι : Type} {R : ι → Emitted → Prop}

/-- Each of a list of things emits a part, and these make up the whole. -/
def Contributes (R : ι → Emitted → Prop) (xs : List ι) (emitted : Emitted) : Prop :=
  ∃ parts, List.Forall₂ R xs parts ∧ emitted = .concat parts

theorem contributes_nil_iff {emitted : Emitted} :
    Contributes R [] emitted ↔ emitted = ⟨[], []⟩ := by
  constructor
  · rintro ⟨parts, hparts, rfl⟩
    cases hparts
    rfl
  · rintro rfl
    exact ⟨[], .nil, rfl⟩

theorem contributes_cons_iff {x : ι} {xs : List ι} {emitted : Emitted} :
    Contributes R (x :: xs) emitted ↔ ∃ part others, R x part ∧ Contributes R xs others ∧
      emitted = ⟨part.nested ++ others.nested, part.own ++ others.own⟩ := by
  constructor
  · rintro ⟨parts, hparts, rfl⟩
    cases hparts with
    | @cons _ part _ parts hpart hparts => exact ⟨part, _, hpart, ⟨parts, hparts, rfl⟩, rfl⟩
  · rintro ⟨part, others, hpart, ⟨parts, hparts, rfl⟩, rfl⟩
    exact ⟨part :: parts, .cons hpart hparts, rfl⟩

end

/-- What an element of a list adds to its node. -/
def AddsItem (codec : Codec) (subject predicate key : String) (item : Value) (part : Emitted) :
    Prop :=
  ∃ before object, Settles (encodeObject codec key item) (before, object) ∧
    part = ⟨before, [⟨subject, predicate, object⟩]⟩

/-- What a property adds to its node. -/
def AddsProperty (codec : Codec) (subject : String) (edge : String × Value) (part : Emitted) :
    Prop :=
  ∃ predicate, encodeKey edge.1 = .ok predicate ∧
    Settles (encodeProperty codec subject predicate edge.1 edge.2) part

theorem settles_encodeItems_iff {subject predicate key : String} {items : List Value}
    (h : ∀ item ∈ items, item.Identified) {emitted : Emitted} :
    Settles (encodeItems codec subject predicate key items) emitted ↔
      Contributes (AddsItem codec subject predicate key) items emitted := by
  induction items generalizing emitted with
  | nil => rw [encodeItems, settles_pure_iff, contributes_nil_iff]
  | cons item rest ih =>
    rw [List.forall_mem_cons] at h
    rw [encodeItems, (steady_encodeObject h.1).settles_bind_iff, contributes_cons_iff]
    constructor
    · rintro ⟨⟨before, object⟩, hitem, hothers⟩
      obtain ⟨others, hrest, hemitted⟩ := (steady_encodeItems h.2).settles_bind_iff.1 hothers
      exact ⟨_, others, ⟨before, object, hitem, rfl⟩, (ih h.2).1 hrest,
        settles_pure_iff.1 hemitted⟩
    · rintro ⟨_, others, ⟨before, object, hitem, rfl⟩, hrest, hemitted⟩
      exact ⟨(before, object), hitem, (steady_encodeItems h.2).settles_bind_iff.2
        ⟨others, (ih h.2).2 hrest, settles_pure_iff.2 hemitted⟩⟩

theorem settles_encodeEntries_iff {subject : String} {entries : List (String × Value)}
    (h : ∀ edge ∈ edges entries, edge.2.Identified) {emitted : Emitted} :
    Settles (encodeEntries codec subject entries) emitted ↔
      Contributes (AddsProperty codec subject) (edges entries) emitted := by
  induction entries generalizing emitted with
  | nil => exact settles_pure_iff.trans contributes_nil_iff.symm
  | cons entry rest ih =>
    obtain ⟨key, value⟩ := entry
    by_cases hid : key = Vocabulary.idKey
    · rw [hid, edges_cons_id] at h ⊢
      rw [encodeEntries_id]
      exact ih h
    · rw [edges_cons hid, List.forall_mem_cons] at h
      rw [encodeEntries_cons codec subject hid, (steady_lift _).settles_bind_iff, edges_cons hid,
        contributes_cons_iff]
      constructor
      · rintro ⟨predicate, hkey, hboth⟩
        obtain ⟨here, hhere, hothers⟩ := (steady_encodeProperty h.1).settles_bind_iff.1 hboth
        obtain ⟨others, hrest, hemitted⟩ := (steady_encodeEntries h.2).settles_bind_iff.1 hothers
        exact ⟨here, others, ⟨predicate, settles_lift_iff.1 hkey, hhere⟩, (ih h.2).1 hrest,
          settles_pure_iff.1 hemitted⟩
      · rintro ⟨here, others, ⟨predicate, hkey, hhere⟩, hrest, hemitted⟩
        refine ⟨predicate, settles_lift_iff.2 hkey, ?_⟩
        refine (steady_encodeProperty h.1).settles_bind_iff.2 ⟨here, hhere, ?_⟩
        exact (steady_encodeEntries h.2).settles_bind_iff.2
          ⟨others, (ih h.2).2 hrest, settles_pure_iff.2 hemitted⟩

theorem settles_encodeObject_node_iff {key : String} {entries : Node}
    (h : (Value.node entries).Identified) {triples : List Triple} {token : String} :
    Settles (encodeObject codec key (.node entries)) (triples, token) ↔
      Settles (subjectOf (identifier? entries)) token ∧
        ∃ emitted, Contributes (AddsProperty codec token) (edges entries) emitted ∧
          triples = emitted.nested ++ emitted.own := by
  obtain ⟨⟨-, hid⟩, hedges⟩ := Value.identified_node_iff.1 h
  rw [encodeObject, ← identifier?, (steady_subjectOf hid).settles_bind_iff]
  constructor
  · rintro ⟨subject, hsubject, hentries⟩
    obtain ⟨emitted, hemitted, heq⟩ := (steady_encodeEntries hedges).settles_bind_iff.1 hentries
    obtain ⟨rfl, rfl⟩ := Prod.mk.inj (settles_pure_iff.1 heq)
    exact ⟨hsubject, emitted, (settles_encodeEntries_iff hedges).1 hemitted, rfl⟩
  · rintro ⟨hsubject, emitted, hemitted, rfl⟩
    exact ⟨token, hsubject, (steady_encodeEntries hedges).settles_bind_iff.2
      ⟨emitted, (settles_encodeEntries_iff hedges).2 hemitted, settles_pure_iff.2 rfl⟩⟩

/-- A property that holds no list adds what an element would. -/
theorem settles_encodeProperty_iff {subject predicate key : String} {v : Value}
    (h : v.Identified) (hlist : ∀ items, v ≠ .list items) {part : Emitted} :
    Settles (encodeProperty codec subject predicate key v) part ↔
      AddsItem codec subject predicate key v part := by
  rw [encodeProperty_single codec subject predicate key hlist,
    (steady_encodeObject h).settles_bind_iff]
  constructor
  · rintro ⟨⟨before, object⟩, hobject, hpart⟩
    exact ⟨before, object, hobject, settles_pure_iff.1 hpart⟩
  · rintro ⟨before, object, hobject, hpart⟩
    exact ⟨(before, object), hobject, settles_pure_iff.2 hpart⟩

end Triple

end LinkedData
