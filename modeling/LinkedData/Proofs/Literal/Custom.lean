import Mathlib.Data.List.Nodup
import LinkedData.Proofs.Literal.RoundTrip

/-!
# Custom kinds on the wire

A custom value is written by the handler of its kind and is read by the handler of its
datatype, so the codec has to find the same handler both ways. It does if no two handlers share
a datatype and none takes one of the built-in datatypes (`Codec.Lossless`); no two handlers
share a kind however they were registered (`nodup_kinds`).

A handler's lexical form is put between the quotes as it is. So what the handler reads back is
the payload (`custom_round_trip`), but the wire text carries the value exactly when the lexical
form is quotable by itself and the handler also understands it unescaped. A form without any
of the five special characters always does; a form with a quote in it ends its own literal
(`custom_ends_early`).
-/

namespace LinkedData.Codec

open Literal

/-! ## Registering -/

theorem mem_insertHandler {handler other : KindHandler} {handlers : List KindHandler}
    (h : other ∈ insertHandler handler handlers) : other = handler ∨ other ∈ handlers := by
  induction handlers with
  | nil => exact .inl (List.mem_singleton.1 h)
  | cons first rest ih =>
    rw [insertHandler] at h
    split at h
    · exact (List.mem_cons.1 h).imp_right (List.mem_cons_of_mem _)
    · rcases List.mem_cons.1 h with rfl | h
      · exact .inr List.mem_cons_self
      · exact (ih h).imp_right (List.mem_cons_of_mem _)

theorem nodup_insertHandler {handler : KindHandler} {handlers : List KindHandler}
    (h : (handlers.map (·.kind)).Nodup) :
    ((insertHandler handler handlers).map (·.kind)).Nodup := by
  induction handlers with
  | nil => exact List.nodup_singleton _
  | cons first rest ih =>
    rw [List.map_cons, List.nodup_cons] at h
    rw [insertHandler]
    split
    · rename_i hkind
      rw [List.map_cons, List.nodup_cons, ← hkind]
      exact h
    · rename_i hkind
      rw [List.map_cons, List.nodup_cons]
      refine ⟨fun hmem => ?_, ih h.2⟩
      obtain ⟨other, hother, heq⟩ := List.mem_map.1 hmem
      rcases mem_insertHandler hother with rfl | hother
      · exact hkind heq.symm
      · exact h.1 (List.mem_map.2 ⟨other, hother, heq⟩)

/-- A codec has at most one handler for each kind, in whatever order they are registered. -/
theorem nodup_kinds (handlers : List KindHandler) :
    ((ofHandlers handlers).handlers.map (·.kind)).Nodup := by
  have hstep : ∀ (handlers : List KindHandler) (codec : Codec),
      (codec.handlers.map (·.kind)).Nodup →
      ((handlers.foldl register codec).handlers.map (·.kind)).Nodup := by
    intro handlers
    induction handlers with
    | nil => exact fun _ h => h
    | cons handler rest ih => exact fun codec h => ih _ (nodup_insertHandler h)
  exact hstep handlers empty List.nodup_nil

/-! ## Finding handlers -/

/-- What can be told apart by a text is found by it. -/
theorem find?_eq_some_iff_of_nodup {key : KindHandler → String} {handlers : List KindHandler}
    (h : (handlers.map key).Nodup) {text : String} {handler : KindHandler} :
    handlers.find? (key · == text) = some handler ↔ handler ∈ handlers ∧ key handler = text := by
  constructor
  · intro hfound
    have hkey := List.find?_some hfound
    exact ⟨List.mem_of_find?_eq_some hfound, beq_iff_eq.1 hkey⟩
  · rintro ⟨hmem, rfl⟩
    have hsome : (handlers.find? (key · == key handler)).isSome = true :=
      List.find?_isSome.2 ⟨handler, hmem, beq_self_eq_true _⟩
    obtain ⟨found, hfound⟩ := Option.isSome_iff_exists.1 hsome
    have hkey := List.find?_some hfound
    have hin := List.mem_of_find?_eq_some hfound
    rw [hfound, List.inj_on_of_nodup_map h hin hmem (beq_iff_eq.1 hkey)]

/-! ## Datatypes of one's own -/

/-- A datatype that is not one of XML Schema, in full or abbreviated. -/
structure OwnDatatype (datatype : String) : Prop where
  /-- it is outside the namespace -/
  outside : Text.startsWith Vocabulary.xsd datatype = false
  /-- it does not begin with the abbreviation of the namespace -/
  unabbreviated : Text.startsWith "xsd:" datatype = false

/-- The handlers are told apart by datatypes of their own, and each reads what it has
written. -/
structure Lossless (codec : Codec) : Prop where
  /-- no two handlers share a datatype -/
  distinct : (codec.handlers.map (·.datatype)).Nodup
  /-- no handler takes a datatype of XML Schema -/
  own : ∀ handler ∈ codec.handlers, OwnDatatype handler.datatype
  /-- the payload is recovered from its lexical form -/
  inverse : ∀ handler ∈ codec.handlers, ∀ payload lexical,
    handler.toLexical payload = .ok lexical → handler.fromLexical lexical = .ok payload

theorem OwnDatatype.ne {datatype : String} (h : OwnDatatype datatype) (name : String) :
    datatype ≠ Vocabulary.xsd ++ name := by
  intro heq
  have hstart : Text.startsWith Vocabulary.xsd datatype = true :=
    Text.startsWith_iff.2 ⟨name, heq⟩
  rw [h.outside] at hstart
  cases hstart

theorem OwnDatatype.expand {datatype : String} (h : OwnDatatype datatype) :
    expandDatatype datatype = datatype := by
  rw [expandDatatype, Text.after?_eq_none_of_not_startsWith h.unabbreviated]

/-- Whatever is expanded to a datatype of one's own is that datatype already. -/
theorem OwnDatatype.eq_of_expand {datatype written : String} (h : OwnDatatype datatype)
    (he : expandDatatype written = datatype) : written = datatype := by
  rw [expandDatatype] at he
  split at he
  · exact absurd he.symm (h.ne _)
  · exact he

variable {codec : Codec} {handler : KindHandler}

/-- A literal with such a datatype is read by the handler of the datatype, or is a text. -/
theorem decodeTyped_own (codec : Codec) (lexical : String) {datatype : String}
    (h : OwnDatatype datatype) :
    codec.decodeTyped lexical datatype =
      match codec.handlerOf? datatype with
      | some handler => (handler.fromLexical lexical).map (.custom handler.kind)
      | none => .ok (.string lexical) := by
  have hnames : Text.after? Vocabulary.xsd datatype = none :=
    Text.after?_eq_none_of_not_startsWith h.outside
  have hinteger : datatype ≠ Vocabulary.xsdInteger := h.ne "integer"
  have hfloat : datatype ≠ Vocabulary.xsdFloat := h.ne "float"
  have hboolean : datatype ≠ Vocabulary.xsdBoolean := h.ne "boolean"
  have htime : datatype ≠ Vocabulary.xsdDateTime := h.ne "dateTime"
  have hstring : datatype ≠ Vocabulary.xsdString := h.ne "string"
  rw [decodeTyped, if_neg hinteger, if_neg hfloat, if_neg hboolean, if_neg htime, if_neg hstring,
    hnames]
  rfl

theorem Lossless.decodeLiteral (hc : codec.Lossless) (h : handler ∈ codec.handlers)
    (lexical : String) :
    codec.decodeLiteral lexical (some handler.datatype) =
      (handler.fromLexical lexical).map (.custom handler.kind) := by
  have hfound : codec.handlerOf? handler.datatype = some handler :=
    (find?_eq_some_iff_of_nodup hc.distinct).2 ⟨h, rfl⟩
  rw [Codec.decodeLiteral]
  simp only [(hc.own handler h).expand, decodeTyped_own codec lexical (hc.own handler h), hfound]

/-! ## What can be read as a custom value -/

theorem decodeLocator_ne_custom (locator kind payload : String) :
    decodeLocator locator ≠ .custom kind payload := by
  intro h
  rw [decodeLocator] at h
  repeat' split at h
  all_goals cases h

theorem decodeInteger_ne_custom (lexical kind payload : String) :
    decodeInteger lexical ≠ .ok (.custom kind payload) := by
  rw [decodeInteger]
  split
  all_goals
    intro h
    cases h

theorem decodeFloat_ne_custom (lexical kind payload : String) :
    decodeFloat lexical ≠ .ok (.custom kind payload) := by
  rw [decodeFloat]
  split
  all_goals
    intro h
    cases h

theorem decodeBoolean_ne_custom (lexical kind payload : String) :
    decodeBoolean lexical ≠ .ok (.custom kind payload) := by
  rw [decodeBoolean]
  repeat' split
  all_goals
    intro h
    cases h

theorem decodeTimestamp_ne_custom (lexical kind payload : String) :
    decodeTimestamp lexical ≠ .ok (.custom kind payload) := by
  rw [decodeTimestamp]
  split
  all_goals
    intro h
    cases h

theorem map_custom_eq_ok_iff {read : Except Error String} {kind kind' payload : String} :
    read.map (Value.custom kind) = .ok (.custom kind' payload) ↔
      read = .ok payload ∧ kind = kind' := by
  cases read with
  | error e => exact ⟨nofun, nofun⟩
  | ok read =>
    rw [Except.map, Except.ok.injEq, Except.ok.injEq, Value.custom.injEq]
    exact And.comm

/-- Only a handler makes a custom value of a literal, and it makes one of its own kind. -/
theorem handler_of_decodeTyped {codec : Codec} {lexical datatype kind payload : String}
    (h : codec.decodeTyped lexical datatype = .ok (.custom kind payload)) :
    ∃ handler, codec.handlerOf? datatype = some handler ∧ handler.kind = kind := by
  rw [decodeTyped] at h
  split at h
  · exact absurd h (decodeInteger_ne_custom _ _ _)
  split at h
  · exact absurd h (decodeFloat_ne_custom _ _ _)
  split at h
  · exact absurd h (decodeBoolean_ne_custom _ _ _)
  split at h
  · exact absurd h (decodeTimestamp_ne_custom _ _ _)
  split at h
  · cases h
  dsimp only at h
  generalize (Text.after? Vocabulary.xsd datatype).getD "" = name at h
  rcases hhandler : codec.handlerOf? datatype with _ | handler
  · rw [hhandler] at h
    split at h
    · exact absurd h (decodeInteger_ne_custom _ _ _)
    split at h
    · exact absurd h (decodeFloat_ne_custom _ _ _)
    · cases h
  · rw [hhandler] at h
    refine ⟨handler, rfl, ?_⟩
    split at h
    · exact absurd h (decodeInteger_ne_custom _ _ _)
    split at h
    · exact absurd h (decodeFloat_ne_custom _ _ _)
    · exact (map_custom_eq_ok_iff.1 h).2

/-- A token that stands for a custom value of a handled kind is a literal with the datatype of
its handler. -/
theorem Lossless.literal_of_value {codec : Codec} (hc : codec.Lossless)
    (hkinds : (codec.handlers.map (·.kind)).Nodup) {handler : KindHandler}
    (hmem : handler ∈ codec.handlers) {token : Token} {payload : String}
    (h : token.value codec = .ok (.custom handler.kind payload)) :
    ∃ quoted, token = .literal quoted (some handler.datatype) := by
  cases token with
  | locator _ | name _ => exact absurd (Except.ok.inj h) (decodeLocator_ne_custom _ _ _)
  | literal quoted datatype? =>
    refine ⟨quoted, ?_⟩
    rw [Token.value, Codec.decodeLiteral.eq_def] at h
    cases datatype? with
    | none =>
      simp only at h
      split at h <;> cases h
    | some datatype =>
      obtain ⟨other, hother, hkind⟩ := handler_of_decodeTyped h
      obtain ⟨hin, hdatatype⟩ := (find?_eq_some_iff_of_nodup hc.distinct).1 hother
      obtain rfl : other = handler := List.inj_on_of_nodup_map hkinds hin hmem hkind
      rw [(hc.own other hmem).eq_of_expand hdatatype.symm]

/-! ## The round trip -/

/-- The literal with the lexical form between its quotes carries the custom value exactly when
the form is quotable and its handler understands it unescaped. -/
theorem Lossless.carries_iff {codec : Codec} (hc : codec.Lossless) {kind payload lexical : String}
    {handler : KindHandler} (hhandler : codec.handler? kind = some handler)
    (hmem : handler ∈ codec.handlers) (hkind : handler.kind = kind)
    (hlexical : handler.toLexical payload = .ok lexical) :
    codec.Carries (.custom kind payload) (.literal lexical.toList (some handler.datatype)) ↔
      Quotable lexical.toList ∧
        handler.fromLexical (String.ofList (unescapeChars lexical.toList)) = .ok payload := by
  have hencode : codec.encodeLiteral (.custom kind payload) =
      .ok (Token.text (.literal lexical.toList (some handler.datatype))) := by
    rw [encodeLiteral, hhandler, ← typed_eq_text]
    simp only [hlexical]
    rfl
  have hvalue : (Token.literal lexical.toList (some handler.datatype)).value codec =
      (handler.fromLexical (String.ofList (unescapeChars lexical.toList))).map (.custom kind) := by
    rw [Token.value, hc.decodeLiteral hmem, hkind]
  rw [Carries, hvalue, map_custom_eq_ok_iff, and_iff_left rfl]
  exact and_iff_right hencode

/-- **Handlers and the wire.** Take a codec with any handlers registered in any order, such that
those that remain are told apart by datatypes of their own and each reads what it writes. Whatever
payload the handler of a kind accepts is written as a literal with its lexical form and its
datatype, and this form with this datatype is read as the same custom value. The wire text
is that of a well-formed token for the value exactly when the lexical form is quotable as it
stands and is understood unescaped, too; and so it always is without special characters. -/
theorem custom_round_trip (handlers : List KindHandler) (hc : (ofHandlers handlers).Lossless)
    {kind payload lexical : String} {handler : KindHandler}
    (hhandler : (ofHandlers handlers).handler? kind = some handler)
    (hlexical : handler.toLexical payload = .ok lexical) :
    (ofHandlers handlers).encodeLiteral (.custom kind payload) =
        .ok (typed lexical handler.datatype) ∧
      (ofHandlers handlers).decodeLiteral lexical (some handler.datatype) =
        .ok (.custom kind payload) ∧
      ((∃ token, (ofHandlers handlers).Carries (.custom kind payload) token) ↔
        Quotable lexical.toList ∧
          handler.fromLexical (String.ofList (unescapeChars lexical.toList)) = .ok payload) ∧
      (lexical.toList.all isPlain = true →
        (ofHandlers handlers).Carries (.custom kind payload)
          (.literal lexical.toList (some handler.datatype))) := by
  obtain ⟨hmem, hkind⟩ := (find?_eq_some_iff_of_nodup (nodup_kinds handlers)).1 hhandler
  have hread := hc.inverse handler hmem payload lexical hlexical
  have hencode : (ofHandlers handlers).encodeLiteral (.custom kind payload) =
      .ok (typed lexical handler.datatype) := by
    rw [encodeLiteral, hhandler]
    simp only [hlexical]
    rfl
  have hiff := hc.carries_iff hhandler hmem hkind hlexical
  refine ⟨hencode, ?_, ⟨?_, fun h => ⟨_, hiff.2 h⟩⟩, fun hplain => ?_⟩
  · rw [hc.decodeLiteral hmem, hread, hkind]
    rfl
  · -- no other token has this text: it would have to be a literal with the same datatype
    rintro ⟨token, htoken⟩
    obtain ⟨quoted, rfl⟩ := hc.literal_of_value (nodup_kinds handlers) hmem (hkind ▸ htoken.2.2)
    have htext := Except.ok.inj (htoken.1.symm.trans hencode)
    rw [typed_eq_text, ← String.toList_inj] at htext
    obtain rfl : quoted = lexical.toList := by simpa [Token.text] using htext
    exact hiff.1 htoken
  · rw [hiff, unescapeChars_of_all hplain, String.ofList_toList]
    exact ⟨quotable_of_all hplain, hread⟩

/-! ### Two registrations of a kind -/

/-- Points of a plane, whose lexical form is `POINT(..)`. -/
def pointHandler : KindHandler where
  kind := "point"
  datatype := "http://example.org/geo#point"
  toLexical := fun payload => .ok ("POINT(" ++ payload ++ ")")
  fromLexical := fun lexical =>
    match Text.between? "POINT(" ")" lexical with
    | some payload => .ok payload
    | none => .error (malformed lexical "http://example.org/geo#point")

/-- Notes, which are their own lexical form. -/
def noteHandler (datatype : String) : KindHandler where
  kind := "note"
  datatype := datatype

theorem fromLexical_pointHandler (payload : String) :
    pointHandler.fromLexical ("POINT(" ++ payload ++ ")") = .ok payload := by
  have hread : Text.between? "POINT(" ")" ("POINT(" ++ payload ++ ")") = some payload :=
    Text.between?_eq_some_iff.2 rfl
  simp only [pointHandler, hread]

/-- The kind of notes is registered twice, the second time with a datatype of its own. -/
def pointsAndNotes : List KindHandler :=
  [noteHandler "xsd:string", pointHandler, noteHandler "http://example.org/note"]

theorem lossless_pointsAndNotes : (ofHandlers pointsAndNotes).Lossless where
  distinct := by decide
  own := by
    intro handler hmem
    rcases List.mem_cons.1 hmem with rfl | hmem
    · exact ⟨by decide +kernel, by decide +kernel⟩
    · obtain rfl := List.mem_singleton.1 hmem
      exact ⟨by decide +kernel, by decide +kernel⟩
  inverse := by
    intro handler hmem payload lexical hlexical
    rcases List.mem_cons.1 hmem with rfl | hmem
    · exact congrArg Except.ok (Except.ok.inj hlexical).symm
    · obtain rfl := List.mem_singleton.1 hmem
      obtain rfl := Except.ok.inj hlexical
      exact fromLexical_pointHandler payload

theorem custom_round_trip_point :
    (ofHandlers pointsAndNotes).Lossless ∧
      (ofHandlers pointsAndNotes).handler? "point" = some pointHandler ∧
      pointHandler.toLexical "1 2" = .ok "POINT(1 2)" ∧
      (ofHandlers pointsAndNotes).Carries (.custom "point" "1 2")
        (.literal "POINT(1 2)".toList (some "http://example.org/geo#point")) := by
  have hfound : (ofHandlers pointsAndNotes).handler? "point" = some pointHandler := rfl
  have hplain : "POINT(1 2)".toList.all isPlain = true := by decide
  exact ⟨lossless_pointsAndNotes, hfound, rfl,
    (custom_round_trip pointsAndNotes lossless_pointsAndNotes hfound rfl).2.2.2 hplain⟩

/-- A note with a quote in it ends its own literal: what follows is no datatype, and the text is
that of no token. -/
theorem custom_ends_early :
    (ofHandlers pointsAndNotes).Lossless ∧
      (ofHandlers pointsAndNotes).encodeLiteral (.custom "note" "a\"b") =
        .ok "\"a\"b\"^^<http://example.org/note>" ∧
      (splitQuote "a\"b\"^^<http://example.org/note>".toList).map (fun parts => parts.1) =
        some ['a'] ∧
      ¬ ∃ token, (ofHandlers pointsAndNotes).Carries (.custom "note" "a\"b") token := by
  have hencode : (ofHandlers pointsAndNotes).encodeLiteral (.custom "note" "a\"b") =
      .ok "\"a\"b\"^^<http://example.org/note>" := rfl
  refine ⟨lossless_pointsAndNotes, hencode, by decide +kernel, ?_⟩
  rintro ⟨token, htoken⟩
  have htext := Except.ok.inj (htoken.1.symm.trans hencode)
  have hread := htoken.ofText?
  have hnone : (Token.ofText? "\"a\"b\"^^<http://example.org/note>").isNone = true := by
    decide +kernel
  rw [← htext, hread] at hnone
  cases hnone

end LinkedData.Codec
