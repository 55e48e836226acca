import LinkedData.Proofs.Literal.Locator
import LinkedData.Proofs.Result.Filing

/-!
# Lists of decoded properties

The lists in a decoded property are the arrays of the document that it was read from, each without
the elements that equal an earlier one, and only those of which one element is left are not lists
any more (`holdsList_iff`). So no list has a single element. But elements are compared as
documents, before they are read, and two documents can be read as the same value or lead to the same
node: a list holds two equal elements exactly if they were written in two ways
(`lists_in_normal_form`). The values in a property are scalars, so there are no other lists in it.
-/

namespace LinkedData

namespace Decoded

mutual

/-- Equality of decoded properties: of values, of the nodes that links lead to, and of lists
element by element. -/
def equals : Decoded → Decoded → Bool
  | .value v, .value w => v.equals w
  | .link p, .link q => p == q
  | .list xs, .list ys => itemsEqual xs ys
  | _, _ => false

/-- Equality of lists, element by element. -/
def itemsEqual : List Decoded → List Decoded → Bool
  | [], [] => true
  | x :: xs, y :: ys => x.equals y && itemsEqual xs ys
  | _, _ => false

end

/-- The list is the property itself, or occurs in one of its elements. -/
inductive HoldsList : Decoded → List Decoded → Prop where
  /-- the property itself -/
  | self (items : List Decoded) : HoldsList (.list items) items
  /-- in an element -/
  | element {items others : List Decoded} {item : Decoded} (hitem : item ∈ items)
      (inner : HoldsList item others) : HoldsList (.list items) others

/-- No two elements are equal. -/
def NoRepeats (items : List Decoded) : Prop :=
  items.Pairwise fun a b => a.equals b = false

end Decoded

namespace ResultGraph

variable {codec : Codec} {key : String} {target : String → Option Nat}

/-! ## The elements that are read -/

/-- The elements of an array that are read: those that equal no earlier one, nor one that was seen
before. -/
def firsts (seen : List Json) : List Json → List Json
  | [] => []
  | item :: rest =>
    if seen.any (·.equals item) then firsts seen rest else item :: firsts (seen ++ [item]) rest

theorem firsts_sublist (seen items : List Json) : (firsts seen items).Sublist items := by
  fun_induction firsts seen items with
  | case1 => exact List.nil_sublist []
  | case2 seen item rest _ ih => exact ih.cons item
  | case3 seen item rest _ ih => exact ih.cons_cons item

/-- What is left are different documents. -/
theorem firsts_different (seen items : List Json) :
    (∀ item ∈ firsts seen items, ∀ other ∈ seen, other.equals item = false) ∧
      (firsts seen items).Pairwise fun a b => a.equals b = false := by
  fun_induction firsts seen items with
  | case1 => exact ⟨nofun, .nil⟩
  | case2 seen item rest _ ih => exact ih
  | case3 seen item rest hnew ih =>
    obtain ⟨hseen, hrest⟩ := ih
    rw [Bool.not_eq_true, List.any_eq_false] at hnew
    refine ⟨List.forall_mem_cons.2 ⟨fun other hother => ?_, fun later hlater other hother => ?_⟩,
      List.pairwise_cons.2 ⟨fun later hlater => ?_, hrest⟩⟩
    · exact Bool.eq_false_iff.2 (hnew other hother)
    · exact hseen later hlater other (List.mem_append_left _ hother)
    · exact hseen later hlater item (List.mem_append_right _ (List.mem_singleton_self item))

/-- Each document is read as the property next to it. -/
abbrev AllRead (codec : Codec) (key : String) : List Json → List RawProperty → Prop :=
  List.Forall₂ fun item property => rawProperty codec key item = .ok property

theorem rawItems_iff {seen items : List Json} {properties : List RawProperty} :
    rawItems codec key seen items = .ok properties ↔
      AllRead codec key (firsts seen items) properties := by
  fun_induction firsts seen items generalizing properties with
  | case1 =>
    rw [rawItems, AllRead, List.forall₂_nil_left_iff]
    exact ⟨fun h => (Except.ok.inj h).symm, fun h => congrArg Except.ok h.symm⟩
  | case2 seen item rest hseen ih =>
    rw [rawItems, if_pos hseen]
    exact ih
  | case3 seen item rest hseen ih =>
    rw [rawItems, if_neg hseen, AllRead, List.forall₂_cons_left_iff, both_eq_ok_iff]
    constructor
    · rintro ⟨first, others, hfirst, hothers, rfl⟩
      exact ⟨first, others, hfirst, ih.1 hothers, rfl⟩
    · rintro ⟨first, others, hfirst, hothers, rfl⟩
      exact ⟨first, others, hfirst, ih.2 hothers, rfl⟩

/-- An array is read element by element. -/
theorem exists_allRead_of_array {items : List Json} {property : RawProperty}
    (h : rawProperty codec key (.array items) = .ok property) :
    ∃ properties, AllRead codec key (firsts [] items) properties ∧
      property = collapse properties := by
  rw [rawProperty] at h
  obtain ⟨properties, hitems, h⟩ := bind_eq_ok_iff.1 h
  exact ⟨properties, rawItems_iff.1 hitems, (Except.ok.inj h).symm⟩

namespace AllRead

variable {items : List Json} {properties others : List RawProperty}

theorem exists_property (h : AllRead codec key items properties) {item : Json}
    (hitem : item ∈ items) :
    ∃ property ∈ properties, rawProperty codec key item = .ok property := by
  obtain ⟨i, hi⟩ := List.mem_iff_getElem?.1 hitem
  obtain ⟨property, hproperty, hread⟩ := exists_of_forall₂ h hi
  exact ⟨property, List.mem_of_getElem? hproperty, hread⟩

theorem exists_item (h : AllRead codec key items properties) {property : RawProperty}
    (hproperty : property ∈ properties) :
    ∃ item ∈ items, rawProperty codec key item = .ok property := by
  obtain ⟨i, hi⟩ := List.mem_iff_getElem?.1 hproperty
  obtain ⟨item, hitem, hread⟩ := exists_of_forall₂ h.flip hi
  exact ⟨item, List.mem_of_getElem? hitem, hread⟩

/-- Reading has one outcome. -/
theorem unique (h : AllRead codec key items properties) (h' : AllRead codec key items others) :
    properties = others :=
  List.right_unique_forall₂' (fun _ _ _ hb hc => Except.ok.inj (hb.symm.trans hc)) h h'

end AllRead

/-! ## The arrays that are read -/

/-- The array is the document itself, or occurs in one of the elements of the document that are
read. -/
inductive ReadsArray : Json → List Json → Prop where
  /-- the document itself -/
  | self (items : List Json) : ReadsArray (.array items) items
  /-- in an element -/
  | element {items others : List Json} {item : Json} (hitem : item ∈ firsts [] items)
      (inner : ReadsArray item others) : ReadsArray (.array items) others

/-- A document that is no array is read as a single property. -/
theorem single_of_rawProperty {j : Json} {property : RawProperty}
    (hj : ∀ items, j ≠ .array items) (h : rawProperty codec key j = .ok property) :
    (∃ v, property = .value v) ∨ ∃ text, property = .locator text := by
  cases j with
  | array items => exact absurd rfl (hj items)
  | object members =>
    rw [rawProperty, objectProperty] at h
    split at h
    · exact .inr ⟨_, (Except.ok.inj h).symm⟩
    · split at h
      · cases h
      · rename_i lexical _
        rcases hv : codec.decodeLiteral lexical ((Fields.get? "@type" members).bind Json.string?)
          with e | v
        · rw [hv] at h
          cases h
        · rw [hv] at h
          exact .inl ⟨v, (Except.ok.inj h).symm⟩
      · exact .inl ⟨_, (Except.ok.inj h).symm⟩
  | string text =>
    rw [rawProperty] at h
    split at h
    · exact .inr ⟨_, (Except.ok.inj h).symm⟩
    · exact .inl ⟨_, (Except.ok.inj h).symm⟩
  | null | boolean _ | number _ => exact .inl ⟨_, (Except.ok.inj h).symm⟩

/-- There is no list in a single property. -/
theorem not_holdsList_single {property : RawProperty}
    (h : (∃ v, property = .value v) ∨ ∃ text, property = .locator text) (list : List Decoded) :
    ¬ (linked target property).HoldsList list := by
  intro hlist
  rcases h with ⟨v, rfl⟩ | ⟨text, rfl⟩
  · rw [linked] at hlist
    cases hlist
  · rw [linked] at hlist
    split at hlist <;> cases hlist

theorem collapse_of_length_ne_one {properties : List RawProperty} (h : properties.length ≠ 1) :
    collapse properties = .list properties := by
  rw [collapse.eq_def]
  split
  · exact absurd rfl h
  · rfl

/-- The list is one of the arrays that are read in the document, with each element that is left read
and linked; and there is not just one of them. -/
def ComesFrom (codec : Codec) (key : String) (target : String → Option Nat) (j : Json)
    (list : List Decoded) : Prop :=
  ∃ items properties, ReadsArray j items ∧ AllRead codec key (firsts [] items) properties ∧
    properties.length ≠ 1 ∧ list = properties.map (linked target)

theorem ComesFrom.element {items : List Json} {item : Json} {list : List Decoded}
    (h : ComesFrom codec key target item list) (hitem : item ∈ firsts [] items) :
    ComesFrom codec key target (.array items) list := by
  obtain ⟨others, properties, hreads, hread⟩ := h
  exact ⟨others, properties, .element hitem hreads, hread⟩

/-- The lists in an array that is read, told by those in its elements. -/
theorem holdsList_collapse_iff {items : List Json} {properties : List RawProperty}
    (hread : AllRead codec key (firsts [] items) properties) {list : List Decoded}
    (ih : ∀ item ∈ firsts [] items, ∀ property, rawProperty codec key item = .ok property →
      ((linked target property).HoldsList list ↔ ComesFrom codec key target item list)) :
    (linked target (collapse properties)).HoldsList list ↔
      ComesFrom codec key target (.array items) list := by
  by_cases hone : properties.length = 1
  · -- the array stands for its only element, and is no list itself
    obtain ⟨single, rfl⟩ := List.length_eq_one_iff.1 hone
    constructor
    · intro hholds
      obtain ⟨item, hitem, hsingle⟩ := hread.exists_item (List.mem_singleton_self single)
      exact ((ih item hitem single hsingle).1 hholds).element hitem
    · rintro ⟨others, properties, hreads, hothers, hne, rfl⟩
      cases hreads with
      | self => exact absurd (hread.unique hothers ▸ hone) hne
      | element hitem inner =>
        obtain ⟨property, hproperty, hitemread⟩ := hread.exists_property hitem
        obtain rfl := List.mem_singleton.1 hproperty
        exact (ih _ hitem property hitemread).2 ⟨others, properties, inner, hothers, hne, rfl⟩
  · rw [collapse_of_length_ne_one hone, linked, linkedItems_eq_map]
    constructor
    · intro hholds
      cases hholds with
      | self => exact ⟨items, properties, .self items, hread, hone, rfl⟩
      | element hitem inner =>
        obtain ⟨property, hproperty, rfl⟩ := List.mem_map.1 hitem
        obtain ⟨item, hitem, hitemread⟩ := hread.exists_item hproperty
        exact ((ih item hitem property hitemread).1 inner).element hitem
    · rintro ⟨others, others', hreads, hothers, hne, rfl⟩
      cases hreads with
      | self =>
        obtain rfl := hread.unique hothers
        exact .self _
      | element hitem inner =>
        obtain ⟨property, hproperty, hitemread⟩ := hread.exists_property hitem
        refine .element (List.mem_map_of_mem hproperty) ?_
        exact (ih _ hitem property hitemread).2 ⟨others, others', inner, hothers, hne, rfl⟩

/-- The lists in a decoded property are the arrays that were read, without those of which a single
element is left. -/
theorem holdsList_iff (j : Json) {property : RawProperty}
    (h : rawProperty codec key j = .ok property) (list : List Decoded) :
    (linked target property).HoldsList list ↔ ComesFrom codec key target j list := by
  by_cases hj : ∃ items, j = .array items
  · obtain ⟨items, rfl⟩ := hj
    obtain ⟨properties, hread, rfl⟩ := exists_allRead_of_array h
    refine holdsList_collapse_iff hread fun item hitem property hproperty => ?_
    have hlt := List.sizeOf_lt_of_mem ((firsts_sublist [] items).mem hitem)
    exact holdsList_iff item hproperty list
  · have hsingle := single_of_rawProperty (fun items heq => hj ⟨items, heq⟩) h
    refine iff_of_false (not_holdsList_single hsingle list) ?_
    rintro ⟨items, properties, hreads, -⟩
    cases hreads <;> exact hj ⟨_, rfl⟩
termination_by sizeOf j
decreasing_by
  subst_vars
  simp only [Json.array.sizeOf_spec]
  omega

/-! ## Elements that are read alike -/

/-- The two documents are read as equal values, or lead to the same node. -/
def ReadAlike (codec : Codec) (key : String) (target : String → Option Nat) (a b : Json) : Prop :=
  ∃ p q, rawProperty codec key a = .ok p ∧ rawProperty codec key b = .ok q ∧
    (linked target p).equals (linked target q) = true

/-- The elements that are left are equal after reading exactly if they are read alike. -/
theorem AllRead.noRepeats_iff {items : List Json} {properties : List RawProperty}
    (h : AllRead codec key items properties) :
    Decoded.NoRepeats (properties.map (linked target)) ↔
      items.Pairwise fun a b => ¬ ReadAlike codec key target a b := by
  induction h with
  | nil => exact iff_of_true .nil .nil
  | @cons a p rest others hfirst hrest ih =>
    rw [List.map_cons, Decoded.NoRepeats, List.pairwise_cons, List.pairwise_cons]
    refine and_congr ⟨fun h b hb hab => ?_, fun h => List.forall_mem_map.2 fun q hq => ?_⟩ ih
    · obtain ⟨p', q, hp, hq, hequal⟩ := hab
      obtain rfl := Except.ok.inj (hp.symm.trans hfirst)
      obtain ⟨q', hq', hread⟩ := AllRead.exists_property hrest hb
      obtain rfl := Except.ok.inj (hq.symm.trans hread)
      exact Bool.false_ne_true ((h _ (List.mem_map_of_mem hq')).symm.trans hequal)
    · obtain ⟨b, hb, hread⟩ := AllRead.exists_item hrest hq
      exact Bool.eq_false_iff.2 fun hequal => h b hb ⟨p, q, hfirst, hread, hequal⟩

/-- Whatever is read in an array that is read has been read. -/
theorem ReadsArray.exists_allRead {j : Json} {items : List Json} (h : ReadsArray j items)
    {property : RawProperty} (hread : rawProperty codec key j = .ok property) :
    ∃ properties, AllRead codec key (firsts [] items) properties := by
  induction h generalizing property with
  | self items =>
    obtain ⟨properties, hitems, -⟩ := exists_allRead_of_array hread
    exact ⟨properties, hitems⟩
  | element hitem _ ih =>
    obtain ⟨properties, hitems, -⟩ := exists_allRead_of_array hread
    obtain ⟨other, -, hother⟩ := hitems.exists_property hitem
    exact ih hother

/-- No list in a decoded property has two equal elements exactly if no two elements that are left of
an array are read alike. -/
theorem noRepeats_iff {j : Json} {property : RawProperty}
    (h : rawProperty codec key j = .ok property) :
    (∀ list, (linked target property).HoldsList list → Decoded.NoRepeats list) ↔
      ∀ array, ReadsArray j array →
        (firsts [] array).Pairwise fun a b => ¬ ReadAlike codec key target a b := by
  constructor
  · intro hnone array hreads
    obtain ⟨properties, hread⟩ := hreads.exists_allRead h
    by_cases hone : properties.length = 1
    · -- a single element has no other to be equal to
      obtain ⟨single, hsingle⟩ := List.length_eq_one_iff.1 (hread.length_eq.trans hone)
      rw [hsingle]
      exact List.pairwise_singleton _ _
    · refine hread.noRepeats_iff.1 (hnone _ ?_)
      exact (holdsList_iff j h _).2 ⟨array, properties, hreads, hread, hone, rfl⟩
  · intro hdiffer list hholds
    obtain ⟨array, properties, hreads, hread, -, rfl⟩ := (holdsList_iff j h list).1 hholds
    exact hread.noRepeats_iff.2 (hdiffer array hreads)

/-! ## One notation for each value -/

/-- The document is the usual notation of the property: truth values, 64-bit whole numbers, other
numbers and texts stand for themselves, and a locator is the identifier of an object with no other
member. -/
inductive Usual (key : String) : Json → RawProperty → Prop where
  /-- a truth value -/
  | boolean (b : Bool) : Usual key (.boolean b) (.value (.boolean b))
  /-- a whole number -/
  | integer (n : Int64) : Usual key (.number (.ofInt64 n)) (.value (.integer n))
  /-- any other number -/
  | float (x : Binary64) : Usual key (.number (.float x)) (.value (.float x))
  /-- a text that is no locator -/
  | text {s : String} (hkey : key ≠ "@type") (hown : isOwnLocator s = false) :
      Usual key (.string s) (.value (.string s))
  /-- a locator -/
  | locator (text : String) : Usual key (.object [(Vocabulary.idKey, .string text)]) (.locator text)

theorem Usual.read {j : Json} {property : RawProperty} (h : Usual key j property) :
    rawProperty codec key j = .ok property := by
  cases h with
  | boolean b => rfl
  | integer n =>
    have hnumber : Value.ofNumber (.ofInt64 n) = .integer n := by
      rw [Value.ofNumber, Json.Number.toInt64?_ofInt64]
    exact congrArg (fun v => Except.ok (RawProperty.value v)) hnumber
  | float x => rfl
  | @text s hkey hown =>
    rw [rawProperty, decide_eq_false hkey, hown]
    rfl
  | locator text => rfl

/-- Different locators stand for different values. -/
theorem eq_of_decodeLocator_equals {text other : String}
    (h : (Literal.decodeLocator text).equals (Literal.decodeLocator other) = true) :
    text = other := by
  rcases Literal.decodeLocator_cases text with
    ⟨htext, hv⟩ | ⟨r, htext, hv⟩ | ⟨name, htext, hv⟩ | hv <;>
  rcases Literal.decodeLocator_cases other with
    ⟨hother, hw⟩ | ⟨s, hother, hw⟩ | ⟨name', hother, hw⟩ | hw <;>
  -- values of two kinds are not equal, and each kind has a namespace of its own
  simp only [hv, hw, Value.equals, beq_iff_eq, Bool.false_eq_true] at h
  · rw [htext, hother]
  · rw [htext, hother, Reference.locator, Reference.locator, h]
  · rw [htext, hother, h]
  · exact h

/-- A locator is linked to a node, or stands for a value. -/
theorem linked_locator_cases (target : String → Option Nat) (text : String) :
    (∃ position, target text = some position ∧
      linked target (.locator text) = .link position) ∨
      linked target (.locator text) = .value (Literal.decodeLocator text) := by
  rw [linked]
  split
  · rename_i position htarget
    exact .inl ⟨position, htarget, rfl⟩
  · exact .inr rfl

namespace Usual

variable {a b : Json} {v w : Value} {p q : RawProperty}

/-- What has another usual notation than a locator equals nothing that a locator is linked to. -/
theorem ne_locator (ha : Usual key a (.value v)) (text : String) :
    (linked target (.value v)).equals (linked target (.locator text)) = false ∧
      (linked target (.locator text)).equals (linked target (.value v)) = false := by
  rcases linked_locator_cases target text with ⟨position, -, htext⟩ | htext
  · rw [htext, linked]
    exact ⟨rfl, rfl⟩
  · rw [htext, linked, Decoded.equals, Decoded.equals]
    rcases Literal.decodeLocator_cases text with ⟨-, hv⟩ | ⟨_, -, hv⟩ | ⟨_, -, hv⟩ | hv <;>
    rw [hv] <;> cases ha <;> exact ⟨rfl, rfl⟩

/-- Equal values have equal usual notations. -/
theorem equals_of_values (ha : Usual key a (.value v)) (hb : Usual key b (.value w))
    (h : v.equals w = true) : a.equals b = true := by
  cases ha with
  | boolean m =>
    cases hb with
    | boolean n => exact h
    | _ => cases h
  | integer m =>
    cases hb with
    | integer n =>
      obtain rfl : m = n := eq_of_beq h
      rw [Json.equals, Json.Number.ofInt64]
      split <;> exact beq_self_eq_true _
    | _ => cases h
  | float x =>
    cases hb with
    | float y => exact h
    | _ => cases h
  | text =>
    cases hb with
    | text => exact h
    | _ => cases h

/-- Locators that are linked to the same have equal usual notations. -/
theorem equals_of_locators {text other : String} (ha : Usual key a (.locator text))
    (hb : Usual key b (.locator other))
    (htarget : ∀ text other position, target text = some position →
      target other = some position → text = other)
    (h : (linked target (.locator text)).equals (linked target (.locator other)) = true) :
    a.equals b = true := by
  have htexts : text = other := by
    rcases linked_locator_cases target text with ⟨position, hposition, htext⟩ | htext <;>
    rcases linked_locator_cases target other with ⟨position', hposition', hother⟩ | hother <;>
    rw [htext, hother] at h
    · obtain rfl : position = position' := eq_of_beq h
      exact htarget text other position hposition hposition'
    · cases h
    · cases h
    · exact eq_of_decodeLocator_equals h
  subst htexts
  cases ha
  cases hb
  simp [Json.equals, Json.membersWithin, Fields.get?]

/-- Usual notations of properties that are linked to equal ones are equal. -/
theorem equals_of_linked (ha : Usual key a p) (hb : Usual key b q)
    (htarget : ∀ text other position, target text = some position →
      target other = some position → text = other)
    (h : (linked target p).equals (linked target q) = true) : a.equals b = true := by
  cases p with
  | value v =>
    cases q with
    | value w =>
      rw [linked, linked] at h
      exact equals_of_values ha hb h
    | locator other => exact absurd ((ne_locator ha other).1.symm.trans h) Bool.false_ne_true
    | list => cases hb
  | locator text =>
    cases q with
    | value w => exact absurd ((ne_locator hb text).2.symm.trans h) Bool.false_ne_true
    | locator other => exact equals_of_locators ha hb htarget h
    | list => cases hb
  | list => cases ha

end Usual

/-- Usual notations of different elements are not read alike. -/
theorem not_readAlike_of_usual
    (htarget : ∀ text other position, target text = some position →
      target other = some position → text = other) {items : List Json}
    (h : ∀ item ∈ items, ∃ property, Usual key item property) :
    (firsts [] items).Pairwise fun a b => ¬ ReadAlike codec key target a b := by
  refine (firsts_different [] items).2.imp_of_mem fun {a b} ha hb hab => ?_
  rintro ⟨p, q, hp, hq, hequal⟩
  obtain ⟨p', husual⟩ := h a ((firsts_sublist [] items).mem ha)
  obtain ⟨q', husual'⟩ := h b ((firsts_sublist [] items).mem hb)
  obtain rfl := Except.ok.inj (hp.symm.trans husual.read)
  obtain rfl := Except.ok.inj (hq.symm.trans husual'.read)
  exact Bool.false_ne_true (hab.symm.trans (husual.equals_of_linked husual' htarget hequal))

/-! ## The lists in decoded nodes -/

/-- A position is the target of one locator. -/
theorem target?_injective {locators : List String} {text other : String} {position : Nat}
    (h : target? locators text = some position) (h' : target? locators other = some position) :
    text = other := by
  have htext := (target?_eq_some_iff.1 h).1
  have hother := (target?_eq_some_iff.1 h').1
  exact Option.some.inj (htext.symm.trans hother)

/-- A property of a node is what the last member of its name was read and linked as. -/
theorem Holds.exists_member {members : Fields Json} {node : DecodedNode}
    (h : Holds codec target members node) (hdistinct : node.properties.Distinct)
    {property : String × Decoded} (hproperty : property ∈ node.properties) :
    ∃ member raw, LastFiled members property.1 member ∧
      rawProperty codec member.1 member.2 = .ok raw ∧ property.2 = linked target raw := by
  obtain ⟨name, decoded⟩ := property
  obtain ⟨member, hlast⟩ := exists_lastFiled (h.only name (List.mem_map_of_mem hproperty))
  obtain ⟨raw, hraw, hkept⟩ := h.kept name member hlast
  have hget := hdistinct.get?_of_mem hproperty
  exact ⟨member, raw, hlast, hraw, Option.some.inj (hget.symm.trans hkept)⟩

/-- The properties of a node were read from the record at its position. -/
theorem exists_member_of_ofRecords {records : List Json} {raws : List RawRecord}
    (h : rawRecords codec 0 records = .ok raws) {unlink : Bool} {position : Nat}
    {node : DecodedNode} (hnode : (ofRecords raws unlink).get? position = some node)
    {property : String × Decoded} (hproperty : property ∈ node.properties) :
    ∃ members member raw, records[position]? = some (.object members) ∧
      LastFiled members property.1 member ∧ rawProperty codec member.1 member.2 = .ok raw ∧
      property.2 = linked (target? (ofRecords raws unlink).locators) raw := by
  rw [get?_ofRecords] at hnode
  obtain ⟨record, hrecord, rfl⟩ := Option.map_eq_some_iff.1 hnode
  obtain ⟨document, hdocument, hread⟩ := exists_record_of_getElem? h hrecord
  obtain ⟨members, rfl, -⟩ := carries_of_rawRecord hread
  have hholds := holds_of_rawRecord hread (target? (raws.map (·.locator)))
  obtain ⟨member, raw, hlast, hraw, hlinked⟩ :=
    hholds.exists_member (Fields.distinct_ofList _) hproperty
  rw [locators_ofRecords]
  exact ⟨members, member, raw, hdocument, hlast, hraw, hlinked⟩

/-- **Lists in normal form.** No list in a property of a decoded node has exactly one element. Two
elements of a list are equal exactly if two elements of an array in the document differ as documents
and are read alike; and there are none if all elements of the document are in usual notation. -/
theorem lists_in_normal_form {response : Json} {unlink : Bool} {g : ResultGraph}
    (h : ofJson codec response unlink = .ok g) :
    ∃ records, recordsOf response = .ok records ∧
      ∀ position node, g.get? position = some node → ∀ property ∈ node.properties,
        (∀ list, property.2.HoldsList list → list.length ≠ 1) ∧
        ∃ members member, records[position]? = some (.object members) ∧
          LastFiled members property.1 member ∧
          ((∀ list, property.2.HoldsList list → Decoded.NoRepeats list) ↔
            ∀ array, ReadsArray member.2 array → (firsts [] array).Pairwise fun a b =>
              ¬ ReadAlike codec member.1 (target? g.locators) a b) ∧
          ∀ array, member.2 = .array array → (∀ item ∈ array, ∃ p, Usual member.1 item p) →
            ∀ list, property.2.HoldsList list → Decoded.NoRepeats list := by
  obtain ⟨records, raws, hrecords, hraws, rfl⟩ := ofJson_eq_ok_iff.1 h
  refine ⟨records, hrecords, fun position node hnode property hproperty => ?_⟩
  obtain ⟨members, member, raw, hrecord, hlast, hraw, hlinked⟩ :=
    exists_member_of_ofRecords hraws hnode hproperty
  rw [hlinked]
  refine ⟨fun list hholds => ?_, members, member, hrecord, hlast, noRepeats_iff hraw, ?_⟩
  · obtain ⟨items, properties, -, -, hne, rfl⟩ := (holdsList_iff _ hraw list).1 hholds
    rwa [List.length_map]
  · intro array harray husual
    refine (noRepeats_iff hraw).2 fun inner hreads => ?_
    rw [harray] at hreads
    cases hreads with
    | self => exact not_readAlike_of_usual (fun _ _ _ => target?_injective) husual
    | element hitem hinner =>
      -- nothing in usual notation is an array
      obtain ⟨p, hp⟩ := husual _ ((firsts_sublist [] array).mem hitem)
      cases hp <;> cases hinner

/-- A text, a link and a number, the first two of them twice. -/
def mentions : List Json :=
  [.string "x", .object [("@id", .string "urn:b")], .number (.natural 3), .string "x",
    .object [("@id", .string "urn:b")]]

/-- A record with such a list, and the record that it has a link to. -/
def mentioning : Json :=
  .array [.object [("@id", .string "urn:a"), (":k", .array mentions)],
    .object [("@id", .string "urn:b")]]

/-- What is in the list is in usual notation. -/
theorem usual_of_mem_mentions : ∀ item ∈ mentions, ∃ property, Usual ":k" item property := by
  have htext : Usual ":k" (.string "x") (.value (.string "x")) :=
    .text (by decide) (by decide +kernel)
  have hlocator : Usual ":k" (.object [("@id", .string "urn:b")]) (.locator "urn:b") :=
    .locator "urn:b"
  simp only [mentions, List.forall_mem_cons]
  exact ⟨⟨_, htext⟩, ⟨_, hlocator⟩, ⟨_, .integer 3⟩, ⟨_, htext⟩, ⟨_, hlocator⟩, nofun⟩

theorem lists_in_normal_form_mentioning :
    ∃ g node, ofJson .empty mentioning true = .ok g ∧ g.get? 0 = some node ∧
      node.properties = [("k", .list [.value (.string "x"), .link 1, .value (.integer 3)])] ∧
      (∀ item ∈ mentions, ∃ property, Usual ":k" item property) ∧
      Decoded.NoRepeats [.value (.string "x"), .link 1, .value (.integer 3)] := by
  obtain ⟨g, node, hg, hnode, hproperties, htarget⟩ : ∃ g node,
      ofJson .empty mentioning true = .ok g ∧ g.get? 0 = some node ∧
      node.properties = [(localName ":k", linked (target? g.locators)
        (.list [.value (.string "x"), .locator "urn:b", .value (.integer 3)]))] ∧
      target? g.locators "urn:b" = some 1 :=
    ⟨_, _, rfl, rfl, rfl, by decide +kernel⟩
  have hlocal : localName ":k" = "k" := by decide +kernel
  simp only [hlocal, linked, linkedItems, htarget] at hproperties
  refine ⟨g, node, hg, hnode, hproperties, usual_of_mem_mentions, ?_⟩
  obtain ⟨records, hrecords, hnodes⟩ := lists_in_normal_form hg
  obtain rfl := Except.ok.inj hrecords
  obtain ⟨-, members, member, hrecord, ⟨before, after, hmembers, hkey, -⟩, -, husual⟩ :=
    hnodes 0 node hnode _ (hproperties ▸ List.mem_singleton_self _)
  obtain rfl := Json.object.inj (Option.some.inj hrecord)
  have hmember : member ∈ [("@id", Json.string "urn:a"), (":k", .array mentions)] :=
    hmembers ▸ List.mem_append_right before List.mem_cons_self
  rcases List.mem_cons.1 hmember with rfl | hmember
  · exact absurd hkey (by decide +kernel)
  · obtain rfl := List.mem_singleton.1 hmember
    exact husual mentions rfl usual_of_mem_mentions _ (.self _)

/-- A record with a locator in two notations, and a number by itself and in an array. -/
def notations : Fields Json :=
  [("@id", .string "urn:a"),
    (":k", .array [.string "http://grel.org/ids/id/eve",
      .object [("@id", .string "http://grel.org/ids/id/eve")]]),
    (":n", .array [.array [.number (.natural 1)], .number (.natural 1)])]

/-- **A list can hold equal elements.** What is written in two ways is not taken for the same. -/
theorem notations_repeat :
    ∃ g node, ofJson .empty (.array [.object notations]) false = .ok g ∧
      g.get? 0 = some node ∧
      node.properties = [("k", .list [.value (.reference eve), .value (.reference eve)]),
        ("n", .list [.value (.integer 1), .value (.integer 1)])] ∧
      ¬ Decoded.NoRepeats [.value (.reference eve), .value (.reference eve)] ∧
      ¬ Decoded.NoRepeats [.value (.integer 1), .value (.integer 1)] := by
  obtain ⟨g, node, hg, hnode, hproperties, htarget⟩ : ∃ g node,
      ofJson .empty (.array [.object notations]) false = .ok g ∧ g.get? 0 = some node ∧
      node.properties = [(localName ":k", linked (target? g.locators)
          (.list [.locator eve.locator, .locator eve.locator])),
        (localName ":n", linked (target? g.locators)
          (.list [.value (.integer 1), .value (.integer 1)]))] ∧
      target? g.locators eve.locator = none :=
    ⟨_, _, rfl, rfl, rfl, by decide +kernel⟩
  have hk : localName ":k" = "k" := by decide +kernel
  have hn : localName ":n" = "n" := by decide +kernel
  simp only [hk, hn, linked, linkedItems, htarget, Literal.decodeLocator_locator] at hproperties
  have hrepeat : ∀ v : Value, v.equals v = true →
      ¬ Decoded.NoRepeats [.value v, .value v] := by
    intro v hv hnone
    have hdiffer := List.rel_of_pairwise_cons hnone (List.mem_singleton_self _)
    rw [Decoded.equals, hv] at hdiffer
    cases hdiffer
  exact ⟨g, node, hg, hnode, hproperties, hrepeat _ (beq_self_eq_true _),
    hrepeat _ (beq_self_eq_true _)⟩

end ResultGraph

end LinkedData
