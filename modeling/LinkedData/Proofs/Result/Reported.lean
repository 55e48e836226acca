import LinkedData.Proofs.Result.Handles
import LinkedData.Proofs.Value.Again
import LinkedData.Result.Tuples

/-!
# What decoding reports

Whatever a response holds, what is decoded from it is tidy: scalars, lists, and nodes that have no
key twice (`Reported.tidy`). So a decoded value that has only finite numbers and nothing custom in
it is read back from its own document exactly if its texts are no more than texts and its timestamps
have years of four digits (`reported_again`).
-/

namespace LinkedData

open Literal

/-! ## Scalars -/

theorem isScalar_ofNumber (n : Json.Number) : (Value.ofNumber n).isScalar = true := by
  rw [Value.ofNumber]
  split <;> rfl

theorem isScalar_decodeLocator (locator : String) : (decodeLocator locator).isScalar = true := by
  rw [decodeLocator]
  repeat' split
  all_goals rfl

namespace Codec

/-- What is read from a literal is a scalar. -/
def ReadsScalar (r : Except Error Value) : Prop :=
  ∀ v, r = .ok v → v.isScalar = true

theorem readsScalar_ok {v : Value} (h : v.isScalar = true) : ReadsScalar (.ok v) := by
  intro w hw
  obtain rfl := Except.ok.inj hw
  exact h

theorem readsScalar_error (e : Error) : ReadsScalar (.error e) := by
  intro w hw
  cases hw

theorem ReadsScalar.ite {p : Prop} [Decidable p] {r r' : Except Error Value}
    (h : ReadsScalar r) (h' : ReadsScalar r') : ReadsScalar (if p then r else r') := by
  split
  · exact h
  · exact h'

theorem readsScalar_decodeInteger (lexical : String) : ReadsScalar (decodeInteger lexical) := by
  rw [decodeInteger]
  split
  · exact readsScalar_ok rfl
  · exact readsScalar_error _

theorem readsScalar_decodeFloat (lexical : String) : ReadsScalar (decodeFloat lexical) := by
  rw [decodeFloat]
  split
  · exact readsScalar_ok rfl
  · exact readsScalar_error _

theorem readsScalar_decodeTimestamp (lexical : String) :
    ReadsScalar (decodeTimestamp lexical) := by
  rw [decodeTimestamp]
  split
  · exact readsScalar_ok rfl
  · exact readsScalar_error _

theorem readsScalar_decodeTyped (codec : Codec) (lexical datatype : String) :
    ReadsScalar (codec.decodeTyped lexical datatype) := by
  rw [decodeTyped]
  refine .ite (readsScalar_decodeInteger _) (.ite (readsScalar_decodeFloat _) (.ite ?_
    (.ite (readsScalar_decodeTimestamp _) (.ite (readsScalar_ok rfl) ?_))))
  · rw [decodeBoolean]
    exact .ite (readsScalar_ok rfl) (.ite (readsScalar_ok rfl) (readsScalar_error _))
  · refine .ite (readsScalar_decodeInteger _) (.ite (readsScalar_decodeFloat _) ?_)
    split
    · rename_i handler _
      rcases handler.fromLexical lexical with e | payload
      · exact readsScalar_error e
      · exact readsScalar_ok rfl
    · exact readsScalar_ok rfl

theorem readsScalar_decodeLiteral (codec : Codec) (lexical : String) (datatype : Option String) :
    ReadsScalar (codec.decodeLiteral lexical datatype) := by
  rw [decodeLiteral.eq_def]
  split
  · exact .ite (readsScalar_ok rfl) (readsScalar_ok rfl)
  · exact readsScalar_decodeTyped codec _ _

end Codec

/-! ## The first pass -/

/-- The values in the property are scalars. -/
inductive RawProperty.Plain : RawProperty → Prop where
  /-- a scalar -/
  | value {v : Value} : v.isScalar = true → Plain (.value v)
  /-- a locator -/
  | locator (text : String) : Plain (.locator text)
  /-- a list -/
  | list {items : List RawProperty} : (∀ item ∈ items, Plain item) → Plain (.list items)

namespace ResultGraph

section

variable {codec : Codec}

theorem isScalar_scalarOf (j : Json) : (scalarOf j).isScalar = true := by
  cases j with
  | number n => exact isScalar_ofNumber n
  | _ => rfl

theorem plain_of_objectProperty {key : String} {members : Fields Json} {property : RawProperty}
    (h : objectProperty codec key members = .ok property) : property.Plain := by
  rw [objectProperty] at h
  split at h
  · obtain rfl := Except.ok.inj h
    exact .locator _
  · split at h
    · cases h
    · rename_i lexical _
      have hscalar :=
        codec.readsScalar_decodeLiteral lexical ((members.get? "@type").bind Json.string?)
      rcases hv : codec.decodeLiteral lexical ((members.get? "@type").bind Json.string?) with e | v
      · rw [hv] at h
        cases h
      · rw [hv] at h
        obtain rfl := Except.ok.inj h
        exact .value (hscalar v hv)
    · obtain rfl := Except.ok.inj h
      exact .value (isScalar_scalarOf _)

theorem plain_collapse {items : List RawProperty} (h : ∀ item ∈ items, item.Plain) :
    (collapse items).Plain := by
  rw [collapse.eq_def]
  split
  · exact h _ (List.mem_singleton_self _)
  · exact .list h

mutual

theorem plain_of_rawProperty {key : String} : ∀ {j : Json} {property : RawProperty},
    rawProperty codec key j = .ok property → property.Plain
  | .array items, _, h => by
    rw [rawProperty] at h
    obtain ⟨properties, hitems, h⟩ := bind_eq_ok_iff.1 h
    obtain rfl := Except.ok.inj h
    exact plain_collapse (plain_of_rawItems hitems)
  | .object members, _, h => plain_of_objectProperty h
  | .string text, _, h => by
    rw [rawProperty] at h
    split at h
    · obtain rfl := Except.ok.inj h
      exact .locator _
    · obtain rfl := Except.ok.inj h
      exact .value rfl
  | .null, _, h | .boolean _, _, h | .number _, _, h => by
    obtain rfl := Except.ok.inj h
    exact .value (isScalar_scalarOf _)

theorem plain_of_rawItems {key : String} : ∀ {items seen : List Json}
    {properties : List RawProperty}, rawItems codec key seen items = .ok properties →
      ∀ property ∈ properties, property.Plain
  | [], _, _, h => by
    obtain rfl := Except.ok.inj h
    exact nofun
  | item :: rest, _, _, h => by
    rw [rawItems] at h
    split at h
    · exact plain_of_rawItems h
    · obtain ⟨first, others, hfirst, hothers, rfl⟩ := both_eq_ok_iff.1 h
      exact List.forall_mem_cons.2 ⟨plain_of_rawProperty hfirst, plain_of_rawItems hothers⟩

end

/-- The values of all properties are scalars. -/
def PlainRecord (record : RawRecord) : Prop :=
  ∀ property ∈ record.properties, property.2.Plain

theorem plain_of_rawProperties {fields : List (String × Json)}
    {properties : List (String × RawProperty)} (h : rawProperties codec fields = .ok properties) :
    ∀ property ∈ properties, property.2.Plain := by
  induction fields generalizing properties with
  | nil =>
    obtain rfl := Except.ok.inj h
    exact nofun
  | cons field rest ih =>
    rw [rawProperties] at h
    split at h
    · exact ih h
    · obtain ⟨property, others, hproperty, hothers, rfl⟩ := both_eq_ok_iff.1 h
      exact List.forall_mem_cons.2 ⟨plain_of_rawProperty hproperty, ih hothers⟩

theorem plainRecord_of_rawRecord {position : Nat} {j : Json} {record : RawRecord}
    (h : rawRecord codec position j = .ok record) : PlainRecord record := by
  obtain ⟨_, -, -, hproperties⟩ := rawRecord_eq_ok_iff.1 h
  exact plain_of_rawProperties hproperties

theorem plainRecord_of_rawRecords {start : Nat} {records : List Json} {raws : List RawRecord}
    (h : rawRecords codec start records = .ok raws) : ∀ record ∈ raws, PlainRecord record := by
  intro record hrecord
  obtain ⟨position, j, -, hread⟩ := exists_of_mem_rawRecords h hrecord
  exact plainRecord_of_rawRecord hread

end

/-! ## The second pass -/

section

variable {target : String → Option Nat} {link : Nat → Value} {P : Value → Prop}

/-- What holds of scalars, of lists of values it holds of, and of whatever links stand for holds of
the value of a property. -/
theorem toValue_of_plain (hscalar : ∀ v : Value, v.isScalar = true → P v)
    (hlist : ∀ items, (∀ item ∈ items, P item) → P (.list items))
    (hlink : ∀ position, P (link position)) {property : RawProperty} (h : property.Plain) :
    P ((linked target property).toValue link) := by
  induction h with
  | value hvalue => exact hscalar _ hvalue
  | locator text =>
    rw [linked]
    split
    · exact hlink _
    · exact hscalar _ (isScalar_decodeLocator text)
  | list _ ih =>
    rw [linked, Decoded.toValue, linkedItems_eq_map, Decoded.toValues_eq_map, List.map_map]
    exact hlist _ (List.forall_mem_map.2 ih)

theorem isScalar_idEntry (node : DecodedNode) :
    ∀ entry ∈ node.idEntry, entry.2.isScalar = true := by
  rw [DecodedNode.idEntry]
  split
  · exact List.forall_mem_singleton.2 rfl
  · exact nofun

theorem distinct_idEntry (node : DecodedNode) : node.idEntry.Distinct := by
  rw [DecodedNode.idEntry]
  split
  · exact List.pairwise_singleton _ _
  · exact List.nodup_nil

/-- The entries of an expanded node are its identifier and its properties. -/
theorem entries_of_plain (hscalar : ∀ v : Value, v.isScalar = true → P v)
    (hlist : ∀ items, (∀ item ∈ items, P item) → P (.list items))
    (hlink : ∀ position, P (link position)) {record : RawRecord} (h : PlainRecord record)
    {fields : Node} (hfields : (nodeOf target record).expand link = .node fields) :
    ∀ entry ∈ fields, P entry.2 := by
  rw [DecodedNode.expand_eq_foldl] at hfields
  obtain rfl := Value.node.inj hfields
  intro entry hentry
  rcases Fields.mem_of_mem_foldl_set hentry with hentry | hentry
  · exact hscalar _ (isScalar_idEntry _ entry hentry)
  · obtain ⟨property, hproperty, rfl⟩ := List.mem_map.1 hentry
    obtain ⟨raw, hraw, rfl⟩ := List.mem_map.1 (Fields.mem_of_mem_ofList hproperty)
    exact toValue_of_plain hscalar hlist hlink (h raw hraw)

/-- The node of a record is tidy: setting a property again leaves its key where it is. -/
theorem tidy_expand (hlink : ∀ position, (link position).Tidy) {record : RawRecord}
    (h : PlainRecord record) : ((nodeOf target record).expand link).Tidy := by
  have hentries := entries_of_plain (fun _ => .scalar) (fun _ => .list) hlink h
    (DecodedNode.expand_eq_foldl (nodeOf target record) link)
  rw [DecodedNode.expand_eq_foldl]
  exact .node ((distinct_idEntry _).foldl_set _) hentries

end

theorem isScalar_cut (node : DecodedNode) : node.cut.isScalar = true := by
  rw [DecodedNode.cut]
  split <;> rfl

/-- A decoded node is tidy however far it is expanded. -/
theorem tidy_valueOn {records : List RawRecord} (h : ∀ record ∈ records, PlainRecord record)
    (unlink : Bool) (fuel : Nat) (path : List Nat) (position : Nat) :
    ((ofRecords records unlink).valueOn fuel path position).Tidy := by
  induction fuel generalizing path position with
  | zero => exact .scalar rfl
  | succ fuel ih =>
    rw [valueOn]
    split
    · exact .scalar rfl
    · rename_i node hnode
      split
      · -- a node that is being expanded already is cut down to its identifier
        exact .scalar (isScalar_cut node)
      · obtain ⟨record, hrecord, rfl⟩ := List.mem_map.1 (List.mem_of_getElem? hnode)
        exact tidy_expand (ih _) (h record hrecord)

end ResultGraph

/-! ## Tuples -/

namespace Row

variable {codec : Codec}

theorem isScalar_of_boundValue {bound : Json} {v : Value} (h : boundValue codec bound = .ok v) :
    v.isScalar = true := by
  rw [boundValue] at h
  split at h
  · cases h
  · rename_i lexical _
    have hliteral := codec.readsScalar_decodeLiteral lexical
      ((bound.member? "datatype").bind Json.string?)
    split at h
    · exact hliteral v h
    · split at h
      · obtain rfl := Except.ok.inj h
        exact isScalar_decodeLocator lexical
      · split at h
        · obtain rfl := Except.ok.inj h
          rfl
        · split at h
          · exact hliteral v h
          · cases h

/-- A row of scalars under distinct names. -/
structure Plain (row : Row) : Prop where
  /-- no name comes twice -/
  distinct : row.Distinct
  /-- all values are scalars -/
  scalars : ∀ entry ∈ row, entry.2.isScalar = true

theorem plain_nil : Plain [] :=
  ⟨List.nodup_nil, nofun⟩

theorem Plain.set {row : Row} (h : row.Plain) (name : String) {v : Value}
    (hv : v.isScalar = true) : Plain (Fields.set name v row) where
  distinct := h.distinct.set name v
  scalars := by
    intro entry hentry
    rcases Fields.mem_of_mem_set hentry with rfl | hentry
    · exact hv
    · exact h.scalars entry hentry

theorem plain_of_addBindings {row row' : Row} {bindings : List (String × Json)}
    (hrow : row.Plain) (h : addBindings codec row bindings = .ok row') : row'.Plain := by
  induction bindings generalizing row with
  | nil =>
    obtain rfl := Except.ok.inj h
    exact hrow
  | cons binding rest ih =>
    rw [addBindings] at h
    obtain ⟨v, hv, h⟩ := bind_eq_ok_iff.1 h
    exact ih (hrow.set _ (isScalar_of_boundValue hv)) h

theorem plain_of_ofBinding {binding : Json} {row : Row} (h : ofBinding codec binding = .ok row) :
    row.Plain := by
  rw [ofBinding.eq_def] at h
  split at h
  · exact plain_of_addBindings plain_nil h
  · cases h

theorem Plain.tidy {row : Row} (h : row.Plain) : (Value.node row).Tidy :=
  .node h.distinct fun entry hentry => .scalar (h.scalars entry hentry)

theorem plain_of_bindings {bindings : List Json} {rows : List Row}
    (h : bindings.mapM (ofBinding codec) = .ok rows) : ∀ row ∈ rows, row.Plain := by
  induction bindings generalizing rows with
  | nil =>
    obtain rfl := Except.ok.inj h
    exact nofun
  | cons binding rest ih =>
    rw [List.mapM_cons, both_eq_ok_iff] at h
    obtain ⟨row, others, hrow, hothers, rfl⟩ := h
    exact List.forall_mem_cons.2 ⟨plain_of_ofBinding hrow, ih hothers⟩

end Row

/-! ## Whatever is reported -/

/-- The value is a listed node of a decoded graph, or a decoded row. -/
def Reported (codec : Codec) (response : Json) (v : Value) : Prop :=
  (∃ unlink g, ResultGraph.ofJson codec response unlink = .ok g ∧ v ∈ g.toValues) ∨
    ∃ rows, Row.allOfJson codec response = .ok rows ∧ ∃ row ∈ rows, v = .node row

/-- **Whatever is decoded is tidy.** -/
theorem Reported.tidy {codec : Codec} {response : Json} {v : Value}
    (h : Reported codec response v) : v.Tidy := by
  rcases h with ⟨unlink, g, hg, hv⟩ | ⟨rows, hrows, row, hrow, rfl⟩
  · obtain ⟨records, raws, -, hraws, rfl⟩ := ResultGraph.ofJson_eq_ok_iff.1 hg
    obtain ⟨position, -, rfl⟩ := List.mem_map.1 hv
    exact ResultGraph.tidy_valueOn (ResultGraph.plainRecord_of_rawRecords hraws) unlink _ _ _
  · obtain ⟨bindings, -, hrows⟩ := bind_eq_ok_iff.1 hrows
    exact (Row.plain_of_bindings hrows row hrow).tidy

/-- **Decoded values are read back from their documents, texts and years permitting.** A decoded
value without custom values and with finite numbers only is written as a well-formed document. It
equals what that document, or within what can be read its text, stands for exactly if no text in
it stands for anything but itself and all its timestamps have years of four digits. -/
theorem reported_again {codec : Codec} {response : Json} {v : Value}
    (h : Reported codec response v) (hfinite : ∀ x, .float x ∈ v.leaves → x.isFinite = true)
    (hcustom : ∀ kind payload, .custom kind payload ∉ v.leaves) :
    v.toJson.WellFormed ∧
      ((Value.ofJson v.toJson).equals v = true ↔
        (∀ s, .string s ∈ v.leaves → Value.IsText s) ∧
          ∀ t, .timestamp t ∈ v.leaves → 0 ≤ t.year ∧ t.year ≤ 9999) ∧
      (v.toJson.depth ≤ Json.maxDepth →
        (∀ x, .float x ∈ v.toJson.numbers → (Json.Number.float x).ReadsBack) →
          (Json.read? v.toJson.compact).map Value.ofJson = some (Value.ofJson v.toJson)) := by
  have htidy := h.tidy
  refine ⟨htidy.wellFormed_toJson, htidy.equals_again_iff.trans ⟨fun hsurvive => ?_, ?_⟩,
    htidy.read?_compact⟩
  · exact ⟨fun s hs => hsurvive _ hs, fun t ht => hsurvive _ ht⟩
  · rintro ⟨htexts, hyears⟩ leaf hleaf
    cases leaf with
    | float x => exact hfinite x hleaf
    | string s => exact htexts s hleaf
    | timestamp t => exact hyears t hleaf
    | custom kind payload => exact hcustom kind payload hleaf
    | _ => trivial

/-- Two records that refer to each other, with texts that nearly look like something else. -/
def penFriends : Json :=
  .array [
    .object [("@id", .string "http://grel.org/ids/id/ada"),
      ("http://grel.org/vocabulary#name", .array [.string "a:b", .string "<ada", .string "@id()"]),
      ("http://grel.org/vocabulary#born",
        .object [("@value", .string "1815-12-10T00:00:60"), ("@type", .string "xsd:dateTime")]),
      ("http://grel.org/vocabulary#knows",
        .object [("@id", .string "http://grel.org/ids/id/bob")])],
    .object [("@id", .string "http://grel.org/ids/id/bob"),
      ("http://grel.org/vocabulary#age", .number (.natural 30)),
      ("http://grel.org/vocabulary#knows", .string "http://grel.org/ids/id/ada")]]

theorem reported_again_pen_friends :
    ∃ g, ResultGraph.ofJson .empty penFriends false = .ok g ∧ g.toValues.length = 2 ∧
      ∀ v ∈ g.toValues, v.leaves.length = 8 ∧ (Value.ofJson v.toJson).equals v = true ∧
        (Json.read? v.toJson.compact).map Value.ofJson = some (Value.ofJson v.toJson) := by
  have hchecked : ((ResultGraph.ofJson .empty penFriends false).toOption.any fun g =>
      decide (g.toValues.length = 2 ∧ ∀ v ∈ g.toValues, v.leaves.length = 8 ∧
        (∀ leaf ∈ v.leaves, leaf.Survives) ∧ v.toJson.depth ≤ Json.maxDepth ∧
        ∀ n ∈ v.toJson.numbers, n.toInt64?.isSome = true)) = true := by
    decide +kernel
  obtain ⟨g, hg, hchecked⟩ := exists_ok_of_any hchecked
  obtain ⟨hlength, hvalues⟩ := of_decide_eq_true hchecked
  refine ⟨g, hg, hlength, fun v hv => ?_⟩
  obtain ⟨hleaves, hsurvive, hdepth, hwhole⟩ := hvalues v hv
  have hreported : Reported .empty penFriends v := .inl ⟨false, g, hg, hv⟩
  obtain ⟨-, hagain, hread⟩ := reported_again hreported (fun x hx => hsurvive _ hx)
    fun kind payload hleaf => hsurvive _ hleaf
  refine ⟨hleaves, hagain.2 ⟨fun s hs => hsurvive _ hs, fun t ht => hsurvive _ ht⟩,
    hread hdepth fun x hx => ?_⟩
  -- there are whole numbers only
  cases hwhole _ hx

/-- A record whose only text begins with a colon. -/
def marked : Json :=
  .array [.object [("@id", .string "http://grel.org/ids/id/a"),
    ("http://grel.org/vocabulary#name", .string ":x")]]

/-- **A text of the store can be taken for a term.** It is reported as a text and written as it is,
and is a term when it is read again. -/
theorem reported_text_taken_for_term :
    ∃ v, Reported .empty marked v ∧ (∀ x, .float x ∈ v.leaves → x.isFinite = true) ∧
      (∀ kind payload, .custom kind payload ∉ v.leaves) ∧
      v.equals (.node [("@id", .reference ⟨"a", by decide⟩), ("name", .string ":x")]) = true ∧
      (Value.ofJson v.toJson).equals
        (.node [("@id", .reference ⟨"a", by decide⟩), ("name", .term "x")]) = true ∧
      (Value.ofJson v.toJson).equals v = false := by
  have hchecked : ((ResultGraph.ofJson .empty marked false).toOption.any fun g =>
      g.toValues.any fun v =>
        decide ((∀ leaf ∈ v.leaves, leaf.kind ≠ .float ∧ leaf.kind ≠ .custom) ∧
        v.equals (.node [("@id", .reference ⟨"a", by decide⟩), ("name", .string ":x")]) = true ∧
        (Value.ofJson v.toJson).equals
          (.node [("@id", .reference ⟨"a", by decide⟩), ("name", .term "x")]) = true ∧
        (Value.ofJson v.toJson).equals v = false)) = true := by
    decide +kernel
  obtain ⟨g, hg, hchecked⟩ := exists_ok_of_any hchecked
  obtain ⟨v, hv, hchecked⟩ := List.any_eq_true.1 hchecked
  obtain ⟨hkinds, hequals⟩ := of_decide_eq_true hchecked
  exact ⟨v, .inl ⟨false, g, hg, hv⟩, fun x hx => absurd rfl (hkinds _ hx).1,
    fun kind payload hleaf => (hkinds _ hleaf).2 rfl, hequals⟩

end LinkedData
