import LinkedData.Proofs.Query.Reached

/-!
# Dissolving a node into its parent

A node that is registered under the variable of its number can be taken out of a group: the
variable leaves the described subjects, and in the open block the subject of the parent takes
its place. Demoting such a node does just that, and it commutes with every other operation on
groups, with demoting other nodes as well.
-/

namespace LinkedData

/-! ## Tokens -/

/-- The token after the node was dissolved into its parent. -/
def dissolved (node : Nat) (parent : String) : String → String :=
  Triple.replaceToken (Group.subjectVariable node) parent

theorem dissolved_subjectVariable (node : Nat) (parent : String) :
    dissolved node parent (Group.subjectVariable node) = parent :=
  if_pos rfl

theorem dissolved_of_ne {node : Nat} {token : String} (h : token ≠ Group.subjectVariable node)
    (parent : String) : dissolved node parent token = token :=
  if_neg h

theorem dissolved_of_fresh {node bound : Nat} {token : String} (h : Fresh bound token)
    (hlt : node < bound) (parent : String) : dissolved node parent token = token :=
  dissolved_of_ne (h.ne hlt) parent

theorem substitute_eq_dissolved (t : Triple) (node : Nat) (parent : String) :
    t.substitute (Group.subjectVariable node) parent =
      ⟨dissolved node parent t.subject, dissolved node parent t.predicate,
        dissolved node parent t.object⟩ :=
  rfl

/-! ## Groups -/

namespace Group

/-- Take a node out of a group: its subject is neither registered nor described, and in the
open block it is the parent's. -/
def dissolve (node : Nat) (parent : String) (g : Group) : Group :=
  { g with
    nodes := g.nodes.filter (·.1 != node)
    projection := g.projection.filter (· != subjectVariable node)
    optionalBuffer := g.optionalBuffer.map (Clause.substitute (subjectVariable node) parent) }

/-- Demoting a node that is registered under its variable dissolves it. -/
theorem demote_eq_dissolve {g : Group} {node : Nat}
    (h : lookupNumber? node g.nodes = some (subjectVariable node)) (parent : String) :
    g.demote node parent = g.dissolve node parent :=
  demote_eq_handedOver h parent

theorem filter_insertNew {item other : String} (h : item ≠ other) (items : List String) :
    (insertNew item items).filter (· != other) = insertNew item (items.filter (· != other)) :=
  filter_insertNew_pos (p := (· != other)) (bne_iff_ne.2 h) items

theorem filter_setNumber {α : Type} {number other : Nat} (h : number ≠ other) (value : α)
    (table : List (Nat × α)) :
    (setNumber number value table).filter (·.1 != other) =
      setNumber number value (table.filter (·.1 != other)) := by
  induction table with
  | nil => exact List.filter_cons_of_pos (by simpa using h)
  | cons entry rest ih =>
    obtain ⟨key, old⟩ := entry
    by_cases hkey : key = number
    · subst hkey
      rw [setNumber, if_pos rfl, List.filter_cons_of_pos (by simpa using h),
        List.filter_cons_of_pos (by simpa using h), setNumber, if_pos rfl]
    · rw [setNumber, if_neg hkey]
      by_cases ho : key = other
      · rw [List.filter_cons_of_neg (by simpa using ho),
          List.filter_cons_of_neg (by simpa using ho), ih]
      · rw [List.filter_cons_of_pos (by simpa using ho),
          List.filter_cons_of_pos (by simpa using ho), setNumber, if_neg hkey, ih]

theorem filter_insertNew_self {item : String} {items : List String} (h : item ∉ items) :
    (insertNew item items).filter (· != item) = items := by
  have hold : items.filter (· != item) = items := by
    refine List.filter_eq_self.2 fun token ht => bne_iff_ne.2 ?_
    rintro rfl
    exact h ht
  rw [filter_insertNew_neg (p := (· != item)) (bne_self_eq_false item), hold]

theorem filter_setNumber_self {α : Type} {number : Nat} (value : α) {table : List (Nat × α)}
    (h : ∀ entry ∈ table, entry.1 ≠ number) :
    (setNumber number value table).filter (·.1 != number) = table := by
  induction table with
  | nil => exact List.filter_cons_of_neg (by simp)
  | cons entry rest ih =>
    have hkey : entry.1 ≠ number := h entry List.mem_cons_self
    rw [setNumber, if_neg hkey, List.filter_cons_of_pos (by simpa using hkey),
      ih fun e he => h e (List.mem_cons_of_mem _ he)]

/-- Replacing a subject variable from the bound up leaves a settled clause. -/
theorem substitute_of_settled {node bound : Nat} {c : Clause} (h : c.Settled bound)
    (hle : bound ≤ node) (parent : String) : c.substitute (subjectVariable node) parent = c := by
  have htoken : ∀ token, LinkedData.Settled bound token → dissolved node parent token = token := by
    intro token ht
    refine dissolved_of_ne ?_ parent
    rintro rfl
    exact absurd (ht node rfl) (Nat.not_lt_of_le hle)
  cases c with
  | filter _ => rfl
  | triple t =>
    rw [Clause.substitute, substitute_eq_dissolved, htoken _ h.subject, htoken _ h.predicate,
      htoken _ h.object]

theorem map_substitute_eq {clauses : List Clause} {old new : String}
    (h : ∀ c ∈ clauses, c.substitute old new = c) :
    clauses.map (Clause.substitute old new) = clauses :=
  (List.map_congr_left h).trans (List.map_id' _)

/-- A node that was only just opened leaves no trace but its number. -/
theorem dissolve_opened {g : Group} (hg : g.Settled) (parent : String) :
    (g.nextNodeId.2.registerNode none g.nodeCounter false).2.dissolve g.nodeCounter parent =
      g.nextNodeId.2 := by
  have hnodes : (setNumber g.nodeCounter (subjectVariable g.nodeCounter) g.nodes).filter
      (·.1 != g.nodeCounter) = g.nodes :=
    filter_setNumber_self _ fun entry he => Nat.ne_of_lt (hg.nodes entry he)
  have hprojection : (insertNew (subjectVariable g.nodeCounter) g.projection).filter
      (· != subjectVariable g.nodeCounter) = g.projection :=
    filter_insertNew_self fun hm => Nat.lt_irrefl _ (hg.projection _ hm _ rfl)
  have hbuffer : g.optionalBuffer.map
      (Clause.substitute (subjectVariable g.nodeCounter) parent) = g.optionalBuffer :=
    map_substitute_eq fun c hc => substitute_of_settled (hg.buffer c hc) (Nat.le_refl _) parent
  simp only [dissolve, registerNode, nextNodeId, Option.getD_none, Bool.false_eq_true, if_false,
    hnodes, hprojection, hbuffer]

/-! ### Dissolving and the operations of groups -/

variable {n : Nat} {parent : String}

theorem dissolve_registerNode {g : Group} {id : Option String} {node : Nat} (hnode : node ≠ n)
    (hsubject : id.getD (subjectVariable node) ≠ subjectVariable n) (inverse : Bool) :
    (g.dissolve n parent).registerNode id node inverse =
      ((g.registerNode id node inverse).1,
        (g.registerNode id node inverse).2.dissolve n parent) := by
  simp only [registerNode, dissolve, filter_setNumber hnode]
  cases inverse with
  | true => rfl
  | false => simp only [Bool.false_eq_true, if_false, filter_insertNew hsubject]

theorem dissolve_append {g : Group} (hopen : 0 < g.optionalDepth) (clauses : List Clause) :
    (g.dissolve n parent).append
        (clauses.map (Clause.substitute (subjectVariable n) parent)) =
      (g.append clauses).dissolve n parent := by
  have hin : g.inOptional = true := decide_eq_true hopen
  have hin' : (g.dissolve n parent).inOptional = true := hin
  rw [append, append, if_pos hin, if_pos hin']
  simp only [dissolve, List.map_append]

theorem dissolve_exitOptional {g : Group} (hopen : 1 < g.optionalDepth) :
    (g.dissolve n parent).exitOptional = g.exitOptional.dissolve n parent := by
  have hdepth : g.optionalDepth - 1 ≠ 0 := by omega
  have hdepth' : (g.dissolve n parent).optionalDepth - 1 ≠ 0 := hdepth
  rw [exitOptional, exitOptional]
  simp only [if_neg hdepth, if_neg hdepth']
  rfl

/-- Two replacements in either order. The image of the node is itself replaced if it is the
subject that goes. -/
theorem replaceToken_dissolved {subject holder holder' image image' : String}
    (hsubject : subject ≠ subjectVariable n)
    (himage : Triple.replaceToken subject holder' image = image')
    (hholder : dissolved n image' holder = holder') (token : String) :
    Triple.replaceToken subject holder' (dissolved n image token) =
      dissolved n image' (Triple.replaceToken subject holder token) := by
  by_cases hn : token = subjectVariable n
  · subst hn
    have hkept : Triple.replaceToken subject holder (subjectVariable n) = subjectVariable n :=
      if_neg (Ne.symm hsubject)
    rw [dissolved_subjectVariable, himage, hkept, dissolved_subjectVariable]
  · rw [dissolved_of_ne hn, Triple.replaceToken, Triple.replaceToken]
    by_cases htoken : token = subject
    · rw [if_pos htoken, if_pos htoken, hholder]
    · rw [if_neg htoken, if_neg htoken, dissolved_of_ne hn]

theorem dissolve_demote {g : Group} {node : Nat} {subject holder holder' image image' : String}
    (hnode : node ≠ n) (hregistered : lookupNumber? node g.nodes = some subject)
    (hsubject : subject ≠ subjectVariable n)
    (himage : Triple.replaceToken subject holder' image = image')
    (hholder : dissolved n image' holder = holder') :
    (g.dissolve n image).demote node holder' = (g.demote node holder).dissolve n image' := by
  have hregistered' : lookupNumber? node (g.dissolve n image).nodes = some subject :=
    (lookupNumber?_filter hnode g.nodes).trans hregistered
  have hclause : ∀ c : Clause,
      (c.substitute (subjectVariable n) image).substitute subject holder' =
        (c.substitute subject holder).substitute (subjectVariable n) image' := by
    intro c
    cases c with
    | filter _ => rfl
    | triple t =>
      have htoken := replaceToken_dissolved hsubject himage hholder
      simp only [Clause.substitute, substitute_eq_dissolved]
      simp only [Triple.substitute, htoken]
  rw [demote, demote, hregistered, hregistered']
  simp only [dissolve, List.filter_filter, List.map_map, Bool.and_comm]
  congr 2
  exact funext hclause

/-! ### Groups that do not mention the node -/

/-- The variable of the node does not stand in the open block: whatever takes its place, the
outcome is the same. -/
def Bare (n : Nat) (g : Group) : Prop :=
  ∀ image image', g.dissolve n image = g.dissolve n image'

theorem bare_of_substitute_eq {g : Group}
    (h : ∀ image, ∀ c ∈ g.optionalBuffer, c.substitute (subjectVariable n) image = c) :
    g.Bare n := by
  intro image image'
  rw [dissolve, dissolve, map_substitute_eq (h image), map_substitute_eq (h image')]

theorem bare_of_settled {g : Group} (h : ∀ c ∈ g.optionalBuffer, c.Settled n) : g.Bare n :=
  bare_of_substitute_eq fun image c hc => substitute_of_settled (h c hc) (Nat.le_refl _) image

/-- Two images suffice to tell: the variable itself and the empty token. -/
theorem bare_of_dissolve_eq {g : Group}
    (h : g.dissolve n (subjectVariable n) = g.dissolve n "") : g.Bare n := by
  have hself : ∀ token, dissolved n (subjectVariable n) token = token := by
    intro token
    rw [dissolved, Triple.replaceToken]
    split
    · rename_i heq
      exact heq.symm
    · rfl
  have hne : ∀ token, dissolved n (subjectVariable n) token = dissolved n "" token →
      token ≠ subjectVariable n := by
    rintro token heq rfl
    rw [hself, dissolved_subjectVariable] at heq
    have hvar := isVariable_subjectVariable n
    rw [heq] at hvar
    revert hvar
    decide +kernel
  -- no token of the open block is the variable: the two images would differ there
  have hmap := congrArg optionalBuffer h
  refine bare_of_substitute_eq fun image c hc => ?_
  have hc := List.map_inj_left.1 hmap c hc
  cases c with
  | filter _ => rfl
  | triple t =>
    rw [Clause.substitute, Clause.substitute, substitute_eq_dissolved, substitute_eq_dissolved,
      Clause.triple.injEq, Triple.mk.injEq] at hc
    obtain ⟨hsubject, hpredicate, hobject⟩ := hc
    rw [Clause.substitute, substitute_eq_dissolved, dissolved_of_ne (hne _ hsubject),
      dissolved_of_ne (hne _ hpredicate), dissolved_of_ne (hne _ hobject)]

end Group

end LinkedData
