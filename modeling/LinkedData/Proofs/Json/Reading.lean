import LinkedData.Json.Reader
import LinkedData.Proofs.Binary64.Finite
import LinkedData.Proofs.Json.WellFormed

/-!
# Documents that are read

Whatever document a text is read as, it is well-formed and not nested deeper than the reader goes
(`Json.wellFormed_of_read?`). The induction is on the steps of the reader: what it reads at one
depth is no deeper, and members are only ever set in a record of distinct ones.
-/

namespace LinkedData.Json

/-! ## Numbers -/

theorem takeSignificand_lt {significand : Nat} (h : significand < 2 ^ 64) (cs : List Char) :
    (takeSignificand significand cs).1 < 2 ^ 64 := by
  induction cs generalizing significand with
  | nil => exact h
  | cons c rest ih =>
    rw [takeSignificand]
    split
    · rename_i hmore
      exact ih hmore
    · exact h

theorem wellFormed_of_floatNumber? {negative : Bool} {whole fraction : List Char} {exponent : Int}
    {n : Number} (h : floatNumber? negative whole fraction exponent = some n) : n.WellFormed := by
  rw [floatNumber?] at h
  obtain ⟨x, hx, h⟩ := Option.bind_eq_some_iff.1 h
  have hwhole := takeSignificand_lt (show 0 < 2 ^ 64 by decide) whole
  have hfinite : x.isFinite = true :=
    Binary64.isFinite_ofDecimalTwoStep (Nat.le_of_lt (takeSignificand_lt hwhole fraction)) hx
  obtain rfl := Option.some.inj h
  rw [Number.WellFormed]
  split
  · exact Binary64.isFinite_neg hfinite
  · exact hfinite

theorem wellFormed_of_wholeNumber? {negative : Bool} {whole : List Char} {n : Number}
    (h : wholeNumber? negative whole = some n) : n.WellFormed := by
  rw [wholeNumber?] at h
  generalize Binary64.ofDigits whole = value at h
  split at h
  · exact wellFormed_of_floatNumber? h
  · rename_i hfits
    split at h
    · obtain rfl := Option.some.inj h
      trivial
    · have hle : value ≤ 2 ^ 64 := Nat.le_of_not_le hfits
      split at h
      · obtain rfl := Option.some.inj h
        exact Binary64.isFinite_neg (Binary64.isFinite_ofNat hle)
      · rename_i hrange
        obtain rfl := Option.some.inj h
        have hbound : (1 <<< 63 : Nat) = 2 ^ 63 := rfl
        simp only [Bool.or_eq_true, decide_eq_true_eq] at hrange
        have hvalue : (Int64.ofInt (-(value : Int))).toInt = -(value : Int) :=
          Int64.toInt_ofInt_of_le (by omega) (by omega)
        rw [Number.WellFormed, Int64.lt_iff_toInt_lt, hvalue]
        show -(value : Int) < 0
        omega

theorem wellFormed_of_readNumber? {negative : Bool} {cs r : List Char} {n : Number}
    (h : readNumber? negative cs = some (n, r)) : n.WellFormed := by
  rw [readNumber?] at h
  dsimp only at h
  split at h
  · cases h
  · split at h
    · split at h
      · cases h
      · obtain ⟨p, -, h⟩ := Option.bind_eq_some_iff.1 h
        obtain ⟨number, hnumber, h⟩ := Option.bind_eq_some_iff.1 h
        obtain ⟨rfl, -⟩ := Prod.mk.inj (Option.some.inj h)
        exact wellFormed_of_floatNumber? hnumber
    · obtain ⟨⟨_ | exponent, _⟩, -, h⟩ := Option.bind_eq_some_iff.1 h
      · obtain ⟨number, hnumber, h⟩ := Option.bind_eq_some_iff.1 h
        obtain ⟨rfl, -⟩ := Prod.mk.inj (Option.some.inj h)
        exact wellFormed_of_wholeNumber? hnumber
      · obtain ⟨number, hnumber, h⟩ := Option.bind_eq_some_iff.1 h
        obtain ⟨rfl, -⟩ := Prod.mk.inj (Option.some.inj h)
        exact wellFormed_of_floatNumber? hnumber

/-! ## Members -/

theorem WellFormedMembers.set {members : Fields Json} {value : Json}
    (h : WellFormedMembers members) (hvalue : value.WellFormed) (key : String) :
    WellFormedMembers (members.set key value) := by
  induction members with
  | nil => exact ⟨hvalue, trivial⟩
  | cons member rest ih =>
    rw [Fields.set]
    split
    · exact ⟨hvalue, h.2⟩
    · exact ⟨h.1, ih h.2⟩

theorem depthMembers_set {members : Fields Json} {key : String} {value : Json} {bound : Nat}
    (h : depthMembers members ≤ bound) (hvalue : value.depth ≤ bound) :
    depthMembers (members.set key value) ≤ bound := by
  induction members with
  | nil =>
    rw [Fields.set, depthMembers, depthMembers, Nat.max_zero]
    exact hvalue
  | cons member rest ih =>
    rw [depthMembers, Nat.max_le] at h
    rw [Fields.set]
    split
    · exact Nat.max_le.2 ⟨hvalue, h.2⟩
    · exact Nat.max_le.2 ⟨h.1, ih h.2⟩

/-! ## Steps of the reader -/

/-- What is read as a document with so many steps is well-formed, and no deeper than allowed. -/
def ReadsWellFormed (fuel : Nat) : Prop :=
  ∀ ⦃depth : Nat⦄ ⦃cs : List Char⦄ ⦃j : Json⦄ ⦃r : List Char⦄,
    readValue? fuel depth cs = some (j, r) → j.WellFormed ∧ j.depth ≤ depth

/-- The same of elements. -/
def ReadsWellFormedItems (fuel : Nat) : Prop :=
  ∀ ⦃depth : Nat⦄ ⦃cs : List Char⦄ ⦃items : List Json⦄ ⦃r : List Char⦄,
    readItems? fuel depth cs = some (items, r) → WellFormedItems items ∧ depthItems items ≤ depth

/-- A record of distinct members, well-formed and no deeper than the bound. -/
structure GoodMembers (bound : Nat) (members : Fields Json) : Prop where
  /-- no key comes twice -/
  distinct : members.Distinct
  /-- all values are well-formed -/
  wellFormed : WellFormedMembers members
  /-- no value is deeper than the bound -/
  depth : depthMembers members ≤ bound

theorem GoodMembers.set {bound : Nat} {members : Fields Json} {value : Json}
    (h : GoodMembers bound members) (hvalue : value.WellFormed ∧ value.depth ≤ bound)
    (key : String) : GoodMembers bound (members.set key value) where
  distinct := h.distinct.set key value
  wellFormed := h.wellFormed.set hvalue.1 key
  depth := depthMembers_set h.depth hvalue.2

/-- The same of members, behind those read before. -/
def ReadsGoodMembers (fuel : Nat) : Prop :=
  ∀ ⦃depth : Nat⦄ ⦃before : Fields Json⦄ ⦃cs : List Char⦄ ⦃members : Fields Json⦄
    ⦃r : List Char⦄, GoodMembers depth before →
    readMembers? fuel depth before cs = some (members, r) → GoodMembers depth members

theorem readsWellFormed_step {fuel : Nat} (hitems : ReadsWellFormedItems fuel)
    (hmembers : ReadsGoodMembers fuel) : ReadsWellFormed (fuel + 1) := by
  intro depth cs j r h
  have hnumber : ∀ {negative : Bool} {rest : List Char},
      ((readNumber? negative rest).map fun p => (Json.number p.1, p.2)) = some (j, r) →
        j.WellFormed ∧ j.depth ≤ depth := by
    intro negative rest h
    obtain ⟨⟨n, _⟩, hn, h⟩ := Option.map_eq_some_iff.1 h
    obtain ⟨rfl, -⟩ := Prod.mk.inj h
    exact ⟨wellFormed_of_readNumber? hn, Nat.zero_le _⟩
  rw [readValue?] at h
  split at h
  case h_4 | h_8 => exact hnumber h
  case h_5 | h_6 | h_7 =>
    obtain rfl := eq_of_readWord? h
    exact ⟨trivial, Nat.zero_le _⟩
  · -- a text
    obtain ⟨⟨s, _⟩, -, h⟩ := Option.map_eq_some_iff.1 h
    obtain ⟨rfl, -⟩ := Prod.mk.inj h
    exact ⟨trivial, Nat.zero_le _⟩
  · -- an array
    cases depth with
    | zero => cases h
    | succ depth =>
      dsimp only at h
      split at h
      · obtain ⟨rfl, -⟩ := Prod.mk.inj (Option.some.inj h)
        exact ⟨trivial, Nat.succ_le_succ (Nat.zero_le _)⟩
      · obtain ⟨⟨items, _⟩, hread, h⟩ := Option.map_eq_some_iff.1 h
        obtain ⟨rfl, -⟩ := Prod.mk.inj h
        exact ⟨(hitems hread).1, Nat.succ_le_succ (hitems hread).2⟩
  · -- an object
    cases depth with
    | zero => cases h
    | succ depth =>
      have hempty : GoodMembers depth [] := ⟨List.nodup_nil, trivial, Nat.zero_le _⟩
      dsimp only at h
      split at h
      · obtain ⟨rfl, -⟩ := Prod.mk.inj (Option.some.inj h)
        exact ⟨⟨hempty.distinct, trivial⟩, Nat.succ_le_succ (Nat.zero_le _)⟩
      · obtain ⟨⟨members, _⟩, hread, h⟩ := Option.map_eq_some_iff.1 h
        obtain ⟨rfl, -⟩ := Prod.mk.inj h
        have hgood := hmembers hempty hread
        exact ⟨⟨hgood.distinct, hgood.wellFormed⟩, Nat.succ_le_succ hgood.depth⟩

theorem readsWellFormedItems_step {fuel : Nat} (hvalue : ReadsWellFormed fuel)
    (hitems : ReadsWellFormedItems fuel) : ReadsWellFormedItems (fuel + 1) := by
  intro depth cs items r h
  rw [readItems?] at h
  obtain ⟨⟨item, _⟩, hread, h⟩ := Option.bind_eq_some_iff.1 h
  have hitem := hvalue hread
  dsimp only at h
  split at h
  · obtain ⟨⟨rest, _⟩, hrest, h⟩ := Option.bind_eq_some_iff.1 h
    obtain ⟨rfl, -⟩ := Prod.mk.inj (Option.some.inj h)
    exact ⟨⟨hitem.1, (hitems hrest).1⟩, Nat.max_le.2 ⟨hitem.2, (hitems hrest).2⟩⟩
  · obtain ⟨rfl, -⟩ := Prod.mk.inj (Option.some.inj h)
    exact ⟨⟨hitem.1, trivial⟩, Nat.max_le.2 ⟨hitem.2, Nat.zero_le _⟩⟩
  · cases h

theorem readsGoodMembers_step {fuel : Nat} (hvalue : ReadsWellFormed fuel)
    (hmembers : ReadsGoodMembers fuel) : ReadsGoodMembers (fuel + 1) := by
  intro depth before cs members r hbefore h
  rw [readMembers?] at h
  split at h
  · obtain ⟨⟨key, _⟩, -, h⟩ := Option.bind_eq_some_iff.1 h
    dsimp only at h
    split at h
    · obtain ⟨⟨value, _⟩, hread, h⟩ := Option.bind_eq_some_iff.1 h
      have hset := hbefore.set (hvalue hread) key
      dsimp only at h
      split at h
      · exact hmembers hset h
      · obtain ⟨rfl, -⟩ := Prod.mk.inj (Option.some.inj h)
        exact hset
      · cases h
    · cases h
  · cases h

theorem reads_wellFormed (fuel : Nat) :
    ReadsWellFormed fuel ∧ ReadsWellFormedItems fuel ∧ ReadsGoodMembers fuel := by
  induction fuel with
  | zero => exact ⟨nofun, nofun, fun _ _ _ _ _ _ => nofun⟩
  | succ fuel ih =>
    obtain ⟨hvalue, hitems, hmembers⟩ := ih
    exact ⟨readsWellFormed_step hitems hmembers, readsWellFormedItems_step hvalue hitems,
      readsGoodMembers_step hvalue hmembers⟩

/-- A document that is read is well-formed, and not nested deeper than the reader goes. -/
theorem wellFormed_of_read? {text : String} {j : Json} (h : read? text = some j) :
    j.WellFormed ∧ j.depth ≤ maxDepth := by
  rw [read?] at h
  obtain ⟨⟨document, r⟩, hread, h⟩ := Option.bind_eq_some_iff.1 h
  dsimp only at h
  split at h
  · obtain rfl := Option.some.inj h
    exact (reads_wellFormed _).1 hread
  · cases h

end LinkedData.Json
