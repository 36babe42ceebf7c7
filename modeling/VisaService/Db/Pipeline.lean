import VisaService.Lib.Desk
import VisaService.Lib.RowIndex

/-!
# Pipelines of the Redis backend

`atomic_pipeline` of the Redis backend sends its operations as a plain pipeline, without
MULTI/EXEC: the server executes them one by one, between the commands of other tasks. An
operation that the server rejects does not keep it from executing those that follow, and when
the connection is lost the server executes only the operations that have reached it.

Main results: `reader_between_operations` and `pipeline_whole_iff`.
-/
namespace VisaService

open Lib

namespace RedisDb

inductive Value
  | string (bytes : List UInt8)
  | set (members : HashSet String)
  | hash (fields : HashMap String String)

structure Entry where
  value : Value
  expires : Option Int

structure Database where
  entries : HashMap String Entry
  now : Int

inductive DbOp
  | del (key : String)
  | setBin (key : String) (value : List UInt8)
  | srem (setKey member : String)
  | hset (hashKey field value : String)
  | hsetMultiple (hashKey : String) (fieldValues : List (String × String))
  | expire (key : String) (seconds : Int)
  deriving DecidableEq, Repr

namespace DbOp

/-- HSET without a field is rejected whatever the server holds. -/
def refused : DbOp → Bool
  | hsetMultiple _ fieldValues => fieldValues.isEmpty
  | _ => false

/-- A list with nothing to be torn apart. -/
def Indivisible (ops : List DbOp) : Prop := ops.length ≤ 1 ∨ ∀ op ∈ ops, op.refused = true

end DbOp

inductive RedisError
  | wrongType
  | wrongNumberOfArguments
  | connection
  deriving DecidableEq, Repr

namespace Database

/-- A key is gone when its time has come. -/
def get (db : Database) (key : String) : Option Entry :=
  db.entries[key]?.filter fun entry => entry.expires.all fun deadline => db.now < deadline

def put (db : Database) (key : String) (entry : Entry) : Database :=
  { db with entries := db.entries.insert key entry }

def del (db : Database) (key : String) : Database :=
  { db with entries := db.entries.erase key }

/-- HSET creates the hash if there is none. -/
def hset (db : Database) (key : String) (fieldValues : List (String × String)) :
    Except RedisError Database :=
  let write (fields : HashMap String String) : Value :=
    .hash (fieldValues.foldl (fun fields entry => fields.insert entry.1 entry.2) fields)
  match db.get key with
  | none => .ok (db.put key ⟨write ∅, none⟩)
  | some ⟨.hash fields, expires⟩ => .ok (db.put key ⟨write fields, expires⟩)
  | some _ => .error .wrongType

/-- SREM deletes a set with its last member. -/
def srem (db : Database) (key member : String) : Except RedisError Database :=
  match db.get key with
  | none => .ok db
  | some ⟨.set members, expires⟩ =>
    if (members.erase member).isEmpty then .ok (db.del key)
    else .ok (db.put key ⟨.set (members.erase member), expires⟩)
  | some _ => .error .wrongType

def expire (db : Database) (key : String) (seconds : Int) : Database :=
  match db.get key with
  | none => db
  | some entry =>
    if seconds ≤ 0 then db.del key
    else db.put key { entry with expires := some (db.now + seconds) }

def apply (db : Database) : DbOp → Except RedisError Database
  | .del key => .ok (db.del key)
  | .setBin key value => .ok (db.put key ⟨.string value, none⟩)
  | .srem setKey member => db.srem setKey member
  | .hset hashKey field value => db.hset hashKey [(field, value)]
  | .hsetMultiple hashKey fieldValues =>
    if fieldValues.isEmpty then .error .wrongNumberOfArguments
    else db.hset hashKey fieldValues
  | .expire key seconds => .ok (db.expire key seconds)

theorem apply_refused {op : DbOp} (refused : op.refused = true) (db : Database) :
    db.apply op = .error .wrongNumberOfArguments := by
  cases op with
  | hsetMultiple hashKey fieldValues => exact if_pos refused
  | _ => cases refused

/-- In an empty store, only its form can have an operation rejected. -/
theorem apply_empty {op : DbOp} (taken : op.refused = false) :
    ∃ after, (⟨∅, 0⟩ : Database).apply op = .ok after := by
  cases op with
  | hsetMultiple hashKey fieldValues =>
    have fields : ¬ fieldValues.isEmpty = true := Bool.eq_false_iff.mp taken
    simp [apply, get, hset, fields]
  | _ => simp [apply, get, hset, srem]

end Database

/-! ### Pipelines under way -/

/-- A call of `atomic_pipeline`: its operations, how many of them reach the server, how many
have been executed and how many of these applied, the first error among the replies and the
result of the call. -/
structure Pipeline where
  ops : List DbOp
  received : Nat
  executed : Nat
  applied : Nat
  failure : Option RedisError
  result : Option (Except RedisError Unit)

structure Server where
  db : Database
  pipelines : List Pipeline

inductive Event
  /-- The server executes the next operation of a pipeline. -/
  | execute (place : Nat)
  /-- The call has all its replies. -/
  | answer (place : Nat)
  /-- The connection is lost; the first `received` operations have reached the server. -/
  | lose (place received : Nat)
  /-- A command of another task that writes. -/
  | write (op : DbOp)
  /-- A command of another task that reads. -/
  | read (key : String)
  | tick (seconds : Nat)
  deriving DecidableEq, Repr

namespace Pipeline

/-- All operations are sent at once. -/
def atomicPipeline (ops : List DbOp) : Pipeline :=
  { ops, received := ops.length, executed := 0, applied := 0, failure := none, result := none }

/-- What the call keeps of the reply to an operation. -/
def reply (pipeline : Pipeline) : Except RedisError Database → Pipeline
  | .ok _ =>
    { pipeline with executed := pipeline.executed + 1, applied := pipeline.applied + 1 }
  | .error failure =>
    { pipeline with
      executed := pipeline.executed + 1
      failure := pipeline.failure <|> some failure }

def next (pipeline : Pipeline) : Option DbOp :=
  if pipeline.executed < pipeline.received then pipeline.ops[pipeline.executed]? else none

def answer (pipeline : Pipeline) : Option Pipeline :=
  match pipeline.result with
  | some _ => none
  | none =>
    if pipeline.executed = pipeline.ops.length then
      some { pipeline with result := some (match pipeline.failure with
        | none => .ok ()
        | some failure => .error failure) }
    else none

def lose (pipeline : Pipeline) (received : Nat) : Option Pipeline :=
  match pipeline.result with
  | some _ => none
  | none =>
    if pipeline.executed ≤ received ∧ received ≤ pipeline.ops.length then
      some { pipeline with received, result := some (.error .connection) }
    else none

def Partial (pipeline : Pipeline) : Prop :=
  0 < pipeline.applied ∧ pipeline.applied < pipeline.ops.length

def Ended (pipeline : Pipeline) : Prop := pipeline.executed = pipeline.received

end Pipeline

namespace Server

def update (server : Server) (place : Nat) (change : Pipeline → Option Pipeline) :
    Option Server := do
  let pipeline ← server.pipelines[place]?
  let changed ← change pipeline
  return { server with pipelines := server.pipelines.set place changed }

/-- What the operation leaves; a rejected one has no effect. -/
def effect (db : Database) (op : DbOp) : Database := (db.apply op).toOption.getD db

def step (server : Server) : Event → Option Server
  | .execute place => do
    let pipeline ← server.pipelines[place]?
    let op ← pipeline.next
    return {
      db := effect server.db op
      pipelines := server.pipelines.set place (pipeline.reply (server.db.apply op)) }
  | .answer place => server.update place Pipeline.answer
  | .lose place received => server.update place (·.lose received)
  | .write op => some { server with db := effect server.db op }
  | .read _ => some server
  | .tick seconds => some { server with db := { server.db with now := server.db.now + seconds } }

/-- The calls have been made and nothing has been executed. -/
def start (db : Database) (calls : List (List DbOp)) : Server :=
  { db, pipelines := calls.map Pipeline.atomicPipeline }

end Server

/-- The event executes a command that is not one of the pipeline at the place. -/
def Event.OfOthers (place : Nat) : Event → Prop
  | execute other => other ≠ place
  | answer _ => False
  | lose _ _ => False
  | write _ => True
  | read _ => True
  | tick _ => False

/-! ### What a pipeline keeps -/

/-- The pipeline is one of the calls; it has applied no more than it has executed, and none of
its operations if the server rejects them all. -/
structure Pipeline.Sound (calls : List (List DbOp)) (pipeline : Pipeline) : Prop where
  called : pipeline.ops ∈ calls
  applied : pipeline.applied ≤ pipeline.executed
  executed : pipeline.executed ≤ pipeline.ops.length
  refused : (∀ op ∈ pipeline.ops, op.refused = true) → pipeline.applied = 0

namespace Pipeline

variable {pipeline after : Pipeline} {calls : List (List DbOp)}

theorem next_eq_some {op : DbOp} (isNext : pipeline.next = some op) :
    pipeline.ops[pipeline.executed]? = some op := by
  unfold next at isNext
  split at isNext
  · exact isNext
  · cases isNext

variable (sound : pipeline.Sound calls)
include sound

theorem Sound.reply {op : DbOp} (isNext : pipeline.next = some op) (db : Database) :
    (pipeline.reply (db.apply op)).Sound calls := by
  have isOp := next_eq_some isNext
  have bound := (List.getElem?_eq_some_iff.mp isOp).1
  cases outcome : db.apply op with
  | ok after =>
    refine ⟨sound.called, Nat.succ_le_succ sound.applied, bound, fun refused => ?_⟩
    rw [db.apply_refused (refused op (List.mem_of_getElem? isOp))] at outcome
    cases outcome
  | error failure =>
    exact ⟨sound.called, sound.applied.trans (Nat.le_succ _), bound, sound.refused⟩

theorem Sound.answer (answers : pipeline.answer = some after) : after.Sound calls := by
  unfold Pipeline.answer at answers
  split at answers
  · cases answers
  · split at answers
    · cases answers
      exact { sound with }
    · cases answers

theorem Sound.lose {received : Nat} (loses : pipeline.lose received = some after) :
    after.Sound calls := by
  unfold Pipeline.lose at loses
  split at loses
  · cases loses
  · split at loses
    · cases loses
      exact { sound with }
    · cases loses

theorem Sound.whole (safe : ∀ ops ∈ calls, DbOp.Indivisible ops) :
    pipeline.applied = 0 ∨ pipeline.applied = pipeline.ops.length := by
  have bound := sound.applied.trans sound.executed
  rcases safe _ sound.called with short | refused
  · omega
  · exact .inl (sound.refused refused)

end Pipeline

namespace Server

open RedisDb.DbOp (Indivisible)

variable {server next : Server} {event : Event} {place : Nat} {calls : List (List DbOp)}

def Sound (calls : List (List DbOp)) (server : Server) : Prop :=
  ∀ pipeline ∈ server.pipelines, pipeline.Sound calls

theorem Sound.set (sound : server.Sound calls) {after : Pipeline} (isSound : after.Sound calls) :
    ∀ pipeline ∈ server.pipelines.set place after, pipeline.Sound calls := by
  intro pipeline member
  rcases List.mem_or_eq_of_mem_set member with old | rfl
  · exact sound pipeline old
  · exact isSound

theorem update_cases {change : Pipeline → Option Pipeline}
    (updates : server.update place change = some next) :
    ∃ pipeline after, server.pipelines[place]? = some pipeline ∧ change pipeline = some after ∧
      next = { server with pipelines := server.pipelines.set place after } := by
  unfold update at updates
  simp only [Option.bind_eq_bind, Option.bind_eq_some_iff, Option.pure_def, Option.some.injEq]
    at updates
  obtain ⟨pipeline, found, after, changes, rfl⟩ := updates
  exact ⟨pipeline, after, found, changes, rfl⟩

theorem Sound.step (sound : server.Sound calls) (stepped : server.step event = some next) :
    next.Sound calls := by
  cases event with
  | execute place =>
    simp only [Server.step, Option.bind_eq_bind, Option.bind_eq_some_iff, Option.pure_def,
      Option.some.injEq] at stepped
    obtain ⟨pipeline, found, op, isNext, rfl⟩ := stepped
    exact sound.set ((sound pipeline (List.mem_of_getElem? found)).reply isNext _)
  | answer place =>
    obtain ⟨pipeline, after, found, answers, rfl⟩ := update_cases stepped
    exact sound.set ((sound pipeline (List.mem_of_getElem? found)).answer answers)
  | lose place received =>
    obtain ⟨pipeline, after, found, loses, rfl⟩ := update_cases stepped
    exact sound.set ((sound pipeline (List.mem_of_getElem? found)).lose loses)
  | write op | read key | tick seconds =>
    cases stepped
    exact sound

theorem sound_start (db : Database) (calls : List (List DbOp)) : (start db calls).Sound calls := by
  intro pipeline member
  obtain ⟨ops, called, rfl⟩ := List.mem_map.mp member
  exact ⟨called, le_rfl, Nat.zero_le _, fun _ => rfl⟩

theorem sound_of_run {db : Database} {events : List Event}
    (ran : run step (start db calls) events = some server) : server.Sound calls :=
  run_preserves (fun _ _ _ sound stepped => Sound.step sound stepped) (sound_start db calls) ran

/-! ### Whole pipelines -/

/-- No command of another task is executed while a pipeline is applied in part. -/
def Unobserved (server : Server) (events : List Event) : Prop :=
  ∀ earlier event later now place pipeline, events = earlier ++ event :: later →
    run step server earlier = some now → now.pipelines[place]? = some pipeline →
    event.OfOthers place → ¬ pipeline.Partial

/-- A call that has failed has applied all its operations or none of them, once the server has
executed what it received. -/
def AllOrNothing (server : Server) : Prop :=
  ∀ pipeline ∈ server.pipelines, ∀ failure, pipeline.result = some (.error failure) →
    pipeline.Ended → pipeline.applied = 0 ∨ pipeline.applied = pipeline.ops.length

theorem execute_single {db : Database} {ops : List DbOp} {op : DbOp} {count : Nat}
    (isOp : ops[count]? = some op) (failure : Option RedisError) :
    let pipeline := { Pipeline.atomicPipeline ops with executed := count, failure }
    run step ⟨db, [pipeline]⟩ [.execute 0] =
      some ⟨effect db op, [pipeline.reply (db.apply op)]⟩ := by
  obtain ⟨bound, rfl⟩ := List.getElem?_eq_some_iff.mp isOp
  simp [run_cons, step, Pipeline.next, Pipeline.atomicPipeline, bound]

/-- The server executes the operations it rejects, and nothing is applied. -/
theorem run_refused {db : Database} {skipped rest : List DbOp}
    (refused : ∀ op ∈ skipped, op.refused = true) {count : Nat} (within : count ≤ skipped.length) :
    ∃ failure, run step (start db [skipped ++ rest]) (List.replicate count (.execute 0)) =
      some ⟨db, [{ Pipeline.atomicPipeline (skipped ++ rest) with executed := count, failure }]⟩ := by
  induction count with
  | zero => exact ⟨none, rfl⟩
  | succ count ih =>
    obtain ⟨failure, ran⟩ := ih (Nat.le_of_succ_le within)
    have isOp : (skipped ++ rest)[count]? = some skipped[count] := by
      rw [List.getElem?_append_left within, List.getElem?_eq_getElem]
    have rejects := db.apply_refused (refused _ (List.getElem_mem within))
    refine ⟨failure <|> some .wrongNumberOfArguments, ?_⟩
    rw [List.replicate_succ']
    refine run_append_eq_some.mpr ⟨_, ran, ?_⟩
    refine (execute_single isOp failure).trans ?_
    rw [effect, rejects]
    rfl

/-- Of two or more operations, the first that is applied can be observed without the others. -/
theorem observed_midway {skipped rest : List DbOp} {op : DbOp}
    (refused : ∀ other ∈ skipped, other.refused = true) (taken : op.refused = false)
    (several : 2 ≤ (skipped ++ op :: rest).length) :
    ∃ events final, run step (start ⟨∅, 0⟩ [skipped ++ op :: rest]) events = some final ∧
      ¬ (start ⟨∅, 0⟩ [skipped ++ op :: rest]).Unobserved events := by
  obtain ⟨failure, ran⟩ := @run_refused ⟨∅, 0⟩ skipped (op :: rest) refused _ le_rfl
  obtain ⟨after, applies⟩ := Database.apply_empty taken
  have isOp : (skipped ++ op :: rest)[skipped.length]? = some op := by simp
  have reached := run_append_eq_some.mpr ⟨_, ran, execute_single isOp failure⟩
  refine ⟨_ ++ [.read ""], _, run_append_eq_some.mpr ⟨_, reached, rfl⟩, fun unobserved => ?_⟩
  have observed := unobserved _ (.read "") [] _ 0 _ rfl reached rfl trivial
  rw [applies] at observed
  exact observed ⟨Nat.one_pos, several⟩

/-- Over any interleaving of pipelines with each other and with other commands, and any losses of
the connection, all are whole if each has at most one operation, or only operations that are
rejected anyway; and a list that is always whole is of this kind. -/
theorem pipeline_whole_iff (db : Database) (calls : List (List DbOp)) (ops : List DbOp) :
    ((∀ each ∈ calls, Indivisible each) →
      ∀ events final, run step (start db calls) events = some final →
        Unobserved (start db calls) events ∧ AllOrNothing final) ∧
    ((∀ db events final, run step (start db [ops]) events = some final →
      Unobserved (start db [ops]) events ∧ AllOrNothing final) → Indivisible ops) := by
  constructor
  · intro safe events final ran
    constructor
    · rintro earlier event later now place pipeline rfl reached found others ⟨some', notAll⟩
      have sound := sound_of_run reached pipeline (List.mem_of_getElem? found)
      have whole := sound.whole safe
      omega
    · intro pipeline member failure isResult ended
      exact (sound_of_run ran pipeline member).whole safe
  · intro always
    by_contra divisible
    obtain ⟨several, op, member, taken⟩ : 2 ≤ ops.length ∧ ∃ op ∈ ops, op.refused ≠ true := by
      simpa [Indivisible, Nat.lt_iff_add_one_le] using divisible
    cases isFirst : ops.find? (fun op => !op.refused) with
    | none => exact taken (by simpa using List.find?_eq_none.mp isFirst op member)
    | some first =>
      obtain ⟨applies, skipped, rest, rfl, refused⟩ := List.find?_eq_some_iff_append.mp isFirst
      obtain ⟨events, final, ran, observed⟩ := observed_midway
        (fun other isOther => by simpa using refused other isOther) (by simpa using applies) several
      exact observed (always _ events final ran).1

end Server

namespace Sample

/-- The attributes of an actor are written anew: the hash is dropped and its fields are set. -/
def update : List DbOp :=
  [.del "actor:fd5a--1:attrs", .hset "actor:fd5a--1:attrs" "zpr.role" "node"]

def db : Database := { entries := ∅, now := 0 }

end Sample

/-- A reader finds the store between the two operations of an update. -/
theorem reader_between_operations :
    ¬ ∀ (db : Database) (calls : List (List DbOp)) (events : List Event) (final : Server),
      run Server.step (Server.start db calls) events = some final →
      (Server.start db calls).Unobserved events ∧ final.AllOrNothing := by
  intro always
  have unobserved := (always Sample.db [Sample.update]
    [.execute 0, .read "actor:fd5a--1:attrs", .execute 0, .answer 0] _ rfl).1
  exact unobserved [.execute 0] (.read "actor:fd5a--1:attrs") [.execute 0, .answer 0] _ 0 _ rfl
    rfl rfl trivial (by unfold Pipeline.Partial; decide)

end RedisDb

end VisaService
