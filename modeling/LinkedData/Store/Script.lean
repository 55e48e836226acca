import LinkedData.Store.Exchange

/-!
# A store that follows a script

A stand-in for a store, for trying out exchanges. It fails where the script says so, answers
queries with the bodies of the script, and keeps a log of the calls.
-/

namespace LinkedData.Store

/-- What a scripted store has yet to do, and what it was asked. -/
structure Script where
  /-- the databases that it lists -/
  databases : List String
  /-- the failures to come, each for the next call of an operation -/
  failures : List (String × Failure)
  /-- the responses to the queries to come -/
  bodies : List String
  /-- the calls so far -/
  log : List Call

namespace Script

/-- The first failure for an operation, and the failures without it. -/
def takeFailure (name : String) :
    List (String × Failure) → Option Failure × List (String × Failure)
  | [] => (none, [])
  | (other, failure) :: rest =>
    if other = name then (some failure, rest)
    else
      let (found, rest) := takeFailure name rest
      (found, (other, failure) :: rest)

/-- The reply to a call that does not fail. A query for which the script has no body gets
an empty list. -/
def reply (script : Script) : (call : Call) → call.Reply × Script
  | .listDatabases => (script.databases, script)
  | .query _ _ _ =>
    match script.bodies with
    | [] => ("[]", script)
    | body :: rest => (body, { script with bodies := rest })
  | .createDatabase _ _ => ((), script)
  | .add _ _ _ _ => ((), script)
  | .remove _ _ _ _ => ((), script)
  | .addConstraints _ _ _ => ((), script)
  | .removeConstraints _ _ _ => ((), script)
  | .setDatabaseOptions _ _ => ((), script)
  | .takeOffline _ => ((), script)
  | .bringOnline _ => ((), script)
  | .uploadRules _ _ => ((), script)

/-- How a scripted store answers: it logs the call, then fails if a failure is due. -/
def behavior : Behavior Script := fun call script =>
  let script := { script with log := script.log ++ [call] }
  match takeFailure call.name script.failures with
  | (some failure, rest) => (.error failure, { script with failures := rest })
  | (none, _) =>
    let (result, script) := script.reply call
    (.ok result, script)

end Script

end LinkedData.Store
