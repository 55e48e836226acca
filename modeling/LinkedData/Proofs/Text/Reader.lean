import LinkedData.Text.Affix

/-!
# Readers

A reader takes what it reads off the front of the characters, and may refuse them. Small readers
are put together in `do` blocks, and with `<|>` where one is tried after another.

What a reader is known to do is said in two ways. It *takes* a text if it reads exactly this text,
whatever follows (`Reader.Takes`), so the end of the text is found without looking any further. It
*refuses* a text if it reads nothing that begins with it (`Reader.Refuses`); that is how a choice
between two readers is decided.
-/

namespace LinkedData.Text

/-- Reads something from the front of the characters, and leaves the others. -/
abbrev Reader (α : Type) : Type :=
  StateT (List Char) Option α

/-- What comes before and after the first such character. -/
def cut? (stop : Char) : List Char → Option (List Char × List Char)
  | [] => none
  | c :: cs =>
    if c = stop then some ([], cs)
    else (cut? stop cs).map fun (before, after) => (c :: before, after)

theorem cut?_append {stop : Char} {cs : List Char} (h : stop ∉ cs) (rest : List Char) :
    cut? stop (cs ++ stop :: rest) = some (cs, rest) := by
  induction cs with
  | nil => exact if_pos rfl
  | cons c cs ih =>
    rw [List.mem_cons, not_or] at h
    rw [List.cons_append, cut?, if_neg (Ne.symm h.1), ih h.2]
    rfl

namespace Reader

/-- Read this very piece. -/
def expect (piece : String) : Reader Unit :=
  fun cs => (dropFront? piece.toList cs).map ((), ·)

/-- Read up to the next such character, which is dropped. -/
def upTo (stop : Char) : Reader String :=
  fun cs => (cut? stop cs).map fun (before, after) => (String.ofList before, after)

variable {α β : Type} {r s : Reader α} {k : α → Reader β} {a : α} {b : β} {text more : String}

/-- The reader takes exactly this text, whatever follows. -/
def Takes (r : Reader α) (text : String) (a : α) : Prop :=
  ∀ rest, r (text.toList ++ rest) = some (a, rest)

/-- The reader takes nothing from what begins like this. -/
def Refuses (r : Reader α) (text : String) : Prop :=
  ∀ rest, r (text.toList ++ rest) = none

theorem bind_apply (r : Reader α) (k : α → Reader β) (cs : List Char) :
    (r >>= k) cs = (r cs).bind fun (a, rest) => k a rest :=
  rfl

theorem orElse_apply (r s : Reader α) (cs : List Char) :
    (r <|> s) cs = (r cs).or (s cs) := by
  change (r cs <|> s cs) = _
  cases r cs <;> rfl

/-! ## Single readers -/

theorem takes_expect (piece : String) : Takes (expect piece) piece () := by
  intro rest
  rw [expect, dropFront?_append]
  rfl

theorem takes_upTo {stop : Char} {closing : String} (hclosing : closing.toList = [stop])
    (h : stop ∉ text.toList) : Takes (upTo stop) (text ++ closing) text := by
  intro rest
  have hsplit : (text ++ closing).toList ++ rest = text.toList ++ stop :: rest := by
    simp [hclosing]
  rw [upTo, hsplit, cut?_append h, Option.map_some]
  exact congrArg (fun t => some (t, rest)) String.ofList_toList

theorem refuses_failure (text : String) : Refuses (failure : Reader α) text :=
  fun _ => rfl

theorem refuses_expect {piece start : String} (h : Apart piece start) (more : String) :
    Refuses (expect piece) (start ++ more) := by
  intro rest
  have hnone := h.after?_eq_none (more ++ String.ofList rest)
  rw [after?, Option.map_eq_none_iff] at hnone
  have hsplit : (start ++ more).toList ++ rest =
      (start ++ (more ++ String.ofList rest)).toList := by
    simp
  rw [expect, hsplit, hnone]
  rfl

/-! ## Readers one after the other -/

theorem Takes.bind (hr : Takes r text a) (hk : Takes (k a) more b) :
    Takes (r >>= k) (text ++ more) b := by
  intro rest
  rw [String.toList_append, List.append_assoc, bind_apply, hr]
  exact hk rest

/-- What is made of the outcome takes no text. -/
theorem Takes.map (hr : Takes r text a) (f : α → β) :
    Takes (do return f (← r)) text (f a) := by
  intro rest
  rw [bind_apply, hr]
  rfl

theorem Refuses.bind (hr : Refuses r text) (k : α → Reader β) : Refuses (r >>= k) text := by
  intro rest
  rw [bind_apply, hr]
  rfl

/-! ## Readers tried one after the other -/

theorem Takes.or_left (hr : Takes r text a) (s : Reader α) : Takes (r <|> s) text a := by
  intro rest
  rw [orElse_apply, hr]
  rfl

theorem Takes.or_right (hs : Takes s text a) (hr : Refuses r text) : Takes (r <|> s) text a := by
  intro rest
  rw [orElse_apply, hr]
  exact hs rest

theorem Refuses.or (hr : Refuses r text) (hs : Refuses s text) : Refuses (r <|> s) text := by
  intro rest
  rw [orElse_apply, hr]
  exact hs rest

end Reader

end LinkedData.Text
