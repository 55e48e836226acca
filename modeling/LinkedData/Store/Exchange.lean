import LinkedData.Store.Failure
import LinkedData.Store.Options

/-!
# Exchanges with the store

Whatever lies behind the store — transport, authentication, the life of its databases — is
not modelled. An *exchange* is a computation that may call the store: it either is done, or
makes a call and goes on with whatever the store answers, a reply or a failure. So an
exchange is the tree of all its courses, and a statement about every behaviour of the store
is a statement about every path of the tree.

A particular store is a `Behavior`: it has a state, and answers each call from it.
-/

namespace LinkedData.Store

/-- A call of the store. A graph that is not named is the default graph. -/
inductive Call where
  /-- the names of the databases -/
  | listDatabases
  /-- make a database -/
  | createDatabase (name : String) (options : List DatabaseOption)
  /-- add the statements of a document -/
  | add (database document : String) (graph : Option String) (mediaType : String)
  /-- remove the statements of a document -/
  | remove (database document : String) (graph : Option String) (mediaType : String)
  /-- add integrity constraints -/
  | addConstraints (database document mediaType : String)
  /-- remove integrity constraints -/
  | removeConstraints (database document mediaType : String)
  /-- run a query -/
  | query (database text : String) (options : QueryOptions)
  /-- change the settings of a database, which must be offline -/
  | setDatabaseOptions (database : String) (options : List DatabaseOption)
  /-- take a database offline -/
  | takeOffline (database : String)
  /-- bring a database back -/
  | bringOnline (database : String)
  /-- upload a document of rules -/
  | uploadRules (database document : String)
  deriving DecidableEq

/-- The name of the operation that a call asks for. -/
def Call.name : Call → String
  | .listDatabases => "list_databases"
  | .createDatabase _ _ => "create_database"
  | .add _ _ _ _ => "add"
  | .remove _ _ _ _ => "remove"
  | .addConstraints _ _ _ => "add_icv"
  | .removeConstraints _ _ _ => "remove_icv"
  | .query _ _ _ => "query"
  | .setDatabaseOptions _ _ => "set_database_options"
  | .takeOffline _ => "offline_database"
  | .bringOnline _ => "online_database"
  | .uploadRules _ _ => "upload_rules"

/-- What the store replies to a call that does not fail. -/
def Call.Reply : Call → Type
  | .listDatabases => List String
  | .query _ _ _ => String
  | _ => Unit

/-- The answer to a call. -/
abbrev Call.Answer (call : Call) : Type :=
  Except Failure call.Reply

/-- A computation that may call the store. -/
inductive Exchange (α : Type) where
  /-- the computation is over -/
  | done (result : α)
  /-- a call, and how to go on from each answer -/
  | ask (call : Call) (next : call.Answer → Exchange α)

namespace Exchange

variable {α β γ : Type}

/-- One exchange after the other. -/
protected def bind : Exchange α → (α → Exchange β) → Exchange β
  | .done a, f => f a
  | .ask call next, f => .ask call fun answer => (next answer).bind f

instance : Monad Exchange where
  pure := .done
  bind := .bind

@[simp] theorem done_bind (a : α) (f : α → Exchange β) : Exchange.done a >>= f = f a := rfl

@[simp] theorem ask_bind (call : Call) (next : call.Answer → Exchange α) (f : α → Exchange β) :
    Exchange.ask call next >>= f = .ask call fun answer => next answer >>= f := rfl

theorem bind_done (m : Exchange α) : m >>= Exchange.done = m := by
  induction m with
  | done a => rfl
  | ask call next ih => simp only [ask_bind, ih]

theorem bind_assoc (m : Exchange α) (f : α → Exchange β) (g : β → Exchange γ) :
    m >>= f >>= g = m >>= fun a => f a >>= g := by
  induction m with
  | done a => rfl
  | ask call next ih => simp only [ask_bind, ih]

instance : LawfulMonad Exchange where
  map_const := rfl
  id_map := bind_done
  seqLeft_eq := fun x y => by
    change (x >>= fun a => y >>= fun _ => .done a) =
      (x >>= fun a => .done (Function.const _ a)) >>= fun f => y >>= fun b => .done (f b)
    simp only [bind_assoc, done_bind, Function.const]
  seqRight_eq := fun x y => by
    change (x >>= fun _ => y) =
      (x >>= fun a => .done (Function.const _ id a)) >>= fun f => y >>= fun b => .done (f b)
    simp only [bind_assoc, done_bind, Function.const, id, bind_done]
  pure_seq := fun _ _ => rfl
  bind_pure_comp := fun _ _ => rfl
  bind_map := fun _ _ => rfl
  pure_bind := fun _ _ => rfl
  bind_assoc := bind_assoc

/-- Make a call. -/
def call (c : Call) : Exchange c.Answer :=
  .ask c .done

end Exchange

/-- A particular store with states of type `σ`. -/
abbrev Behavior (σ : Type) : Type :=
  (call : Call) → σ → call.Answer × σ

/-- The course of an exchange with a particular store, and the state in which it leaves the
store. -/
def Exchange.run {σ α : Type} (behavior : Behavior σ) : Exchange α → σ → α × σ
  | .done a, s => (a, s)
  | .ask call next, s =>
    let (answer, s) := behavior call s
    (next answer).run behavior s

end LinkedData.Store
