import KacheDB.AsyncClient
import KacheDB.Client
import KacheDB.Foundation.Dict
import KacheDB.Foundation.Script
import KacheDB.Pipeline
import KacheDB.Semantic.Cache

/-!
# The methods of the client and of its pipelines

The command methods of `KacheClient`, and the methods of `Pipeline` and `AsyncPipeline` of the
same names.  A method of the client is a script: it executes a command and makes its result of
the reply.  A method of a pipeline queues a command.

`ClientCall` is what the methods of the client, and what is built on them, do with the client.
-/

namespace KacheDB

open Foundation

/-! ## Calls -/

/-- What a method does with the client. -/
inductive ClientCall : Type where
  /-- `self._execute(*args)` -/
  | execute (args : List Arg)
  /-- `client.pipeline()`; the answer says which pipeline of the client it is. -/
  | pipeline
  /-- `pipe.execute()` of a pipeline on which these commands are queued. -/
  | executePipeline (pipe : ℕ) (commands : List (List Arg))

/-- The answer to a call. -/
@[reducible] def ClientCall.Answer : ClientCall → Type
  | .execute _ => RespValue
  | .pipeline => ℕ
  | .executePipeline _ _ => List RespValue

/-- The call is `_execute`. -/
def ClientCall.IsExecute : ClientCall → Prop
  | .execute _ => True
  | _ => False

/-- The call is that of a pipeline. -/
def ClientCall.IsExecutePipeline : ClientCall → Prop
  | .executePipeline _ _ => True
  | _ => False

/-- A method of a client. -/
abbrev ClientScript (α : Type) : Type :=
  Script ClientCall ClientCall.Answer Exc α

/-! ## Python expressions -/

/-- What the code uses of `str` and `bytes`. -/
structure Texts where
  /-- `str(x)` of an object that is neither a text nor an integer. -/
  repr : RespValue → String
  /-- `b.decode("utf-8", errors="replace")` -/
  decodeReplace : Bytes → String

/-- Texts in which an object that is neither a text nor an integer is left out. -/
def Texts.plain : Texts :=
  ⟨fun _ => "", fun b => (decodeUtf8 b).getD ""⟩

namespace RespValue

/-- `result == text` -/
def eqText (text : String) : RespValue → Bool
  | .str s => s == text
  | _ => false

/-- `result == n` -/
def eqInt (n : ℤ) : RespValue → Bool
  | .int m => m == n
  | _ => false

/-- `result in ("OK", b"OK", True)`; the integer 1 is `True`. -/
def inOK (v : RespValue) : Bool :=
  v.isOK || v.eqInt 1

/-- `int(result) if isinstance(result, int) else default` -/
def intOr (default : ℤ) : RespValue → ℤ
  | .int n => n
  | _ => default

/-- `result if isinstance(result, list) else []` -/
def listOrNil : RespValue → List RespValue
  | .list items => items
  | _ => []

/-- `str(result) if result is not None else default` -/
def strOr (texts : Texts) (default : String) : RespValue → String
  | .none => default
  | .str s => s
  | .int n => toString n
  | v => texts.repr v

/-- `v.decode("utf-8") if isinstance(v, bytes) else str(v)` for a value that is not `None`. -/
def decodedText (texts : Texts) : RespValue → Except Exc String
  | .bytes b => decodeText b
  | v => .ok (v.strOr texts "None")

/-- `str(result) if result is not None else default` for a result whose bytes are decoded. -/
def textOr (texts : Texts) (default : String) : RespValue → String
  | .bytes b => texts.decodeReplace b
  | v => v.strOr texts default

end RespValue

/-! ## Arguments of commands -/

/-- The arguments of `SET` with its options. -/
def setCommand (key value : Arg) (ex px : Option ℤ) : List Arg :=
  match ex, px with
  | some ex, _ => [.str "SET", key, value] ++ [.str "EX", .str (toString ex)]
  | none, some px => [.str "SET", key, value] ++ [.str "PX", .str (toString px)]
  | none, none => [.str "SET", key, value]

/-- The arguments of `MSET`. -/
def msetCommand (mapping : Dict Arg Arg) : List Arg :=
  .str "MSET" :: mapping.items.flatMap fun item => [item.1, item.2]

/-- The arguments of a command that counts by one, or of the command that counts by an amount. -/
def countCommand (byOne byAmount : String) (key : Arg) (amount : ℤ) : List Arg :=
  if amount = 1 then [.str byOne, key] else [.str byAmount, key, .str (toString amount)]

/-! ## The methods of the client -/

namespace KacheClient

/-- `self._execute(*args)` -/
def command (args : List Arg) : ClientScript RespValue :=
  Script.ask (ClientCall.execute args)

/-- A command is `_execute`. -/
lemma calls_command (args : List Arg) : (command args).Calls ClientCall.IsExecute :=
  .ask trivial

/-- Send `PING` and return `PONG` or the echoed message. -/
def ping (texts : Texts) (message : Option String) : ClientScript String :=
  (command (.str "PING" :: message.toList.map .str)).map (·.strOr texts "PONG")

/-- Retrieve the value for *key*. -/
def get (key : Arg) : ClientScript RespValue :=
  command [.str "GET", key]

/-- Store *value* under *key* with an optional TTL. -/
def set (key value : Arg) (ex px : Option ℤ) : ClientScript Bool :=
  (command (setCommand key value ex px)).map (·.eqText "OK")

/-- Batch-retrieve values for multiple keys; no command is sent for none. -/
def mget (keys : List Arg) : ClientScript (List RespValue) :=
  if keys.isEmpty then .pure []
  else (command (.str "MGET" :: keys)).map (·.listOrNil)

/-- Delete one or more keys; no command is sent for none. -/
def delete (keys : List Arg) : ClientScript ℤ :=
  if keys.isEmpty then .pure 0
  else (command (.str "DEL" :: keys)).map (·.intOr 0)

/-- Check existence of one or more keys; no command is sent for none. -/
def existsKeys (keys : List Arg) : ClientScript ℤ :=
  if keys.isEmpty then .pure 0
  else (command (.str "EXISTS" :: keys)).map (·.intOr 0)

/-- Set multiple keys to their respective values; no command is sent for none. -/
def mset (mapping : Dict Arg Arg) : ClientScript Bool :=
  if mapping.items.isEmpty then .pure true
  else (command (msetCommand mapping)).map (·.eqText "OK")

/-- Increment the integer value of *key* by *amount*. -/
def incr (key : Arg) (amount : ℤ) : ClientScript ℤ :=
  (command (countCommand "INCR" "INCRBY" key amount)).map (·.intOr 0)

/-- Increment the integer value of *key* by *amount*. -/
def incrby (key : Arg) (amount : ℤ) : ClientScript ℤ :=
  incr key amount

/-- Decrement the integer value of *key* by *amount*. -/
def decr (key : Arg) (amount : ℤ) : ClientScript ℤ :=
  (command (countCommand "DECR" "DECRBY" key amount)).map (·.intOr 0)

/-- Decrement the integer value of *key* by *amount*. -/
def decrby (key : Arg) (amount : ℤ) : ClientScript ℤ :=
  decr key amount

/-- Append *value* to *key*. -/
def append (key value : Arg) : ClientScript ℤ :=
  (command [.str "APPEND", key, value]).map (·.intOr 0)

/-- Return the byte length of the value stored at *key*. -/
def strlen (key : Arg) : ClientScript ℤ :=
  (command [.str "STRLEN", key]).map (·.intOr 0)

/-- Set a timeout on *key* in seconds. -/
def expire (key : Arg) (seconds : ℤ) : ClientScript Bool :=
  (command [.str "EXPIRE", key, .str (toString seconds)]).map (·.eqInt 1)

/-- Set a timeout on *key* in milliseconds. -/
def pexpire (key : Arg) (milliseconds : ℤ) : ClientScript Bool :=
  (command [.str "PEXPIRE", key, .str (toString milliseconds)]).map (·.eqInt 1)

/-- Set an expiration deadline on *key* in seconds. -/
def expireat (key : Arg) (timestamp : ℤ) : ClientScript Bool :=
  (command [.str "EXPIREAT", key, .str (toString timestamp)]).map (·.eqInt 1)

/-- Set an expiration deadline on *key* in milliseconds. -/
def pexpireat (key : Arg) (timestampMs : ℤ) : ClientScript Bool :=
  (command [.str "PEXPIREAT", key, .str (toString timestampMs)]).map (·.eqInt 1)

/-- Return remaining time-to-live in seconds. -/
def ttl (key : Arg) : ClientScript ℤ :=
  (command [.str "TTL", key]).map (·.intOr (-2))

/-- Return remaining time-to-live in milliseconds. -/
def pttl (key : Arg) : ClientScript ℤ :=
  (command [.str "PTTL", key]).map (·.intOr (-2))

/-- Remove the existing timeout on *key*. -/
def persist (key : Arg) : ClientScript Bool :=
  (command [.str "PERSIST", key]).map (·.eqInt 1)

/-- Return server information and runtime statistics. -/
def info (texts : Texts) (sectionName : Option String) : ClientScript String :=
  (command (.str "INFO" :: sectionName.toList.map .str)).map (·.textOr texts "")

/-- Return the total number of keys. -/
def dbsize : ClientScript ℤ :=
  (command [.str "DBSIZE"]).map (·.intOr 0)

/-- Return the type of the value stored at *key*. -/
def type (texts : Texts) (key : Arg) : ClientScript String :=
  (command [.str "TYPE", key]).map (·.textOr texts "none")

/-- Delete all keys in the current database. -/
def flushdb : ClientScript Bool :=
  (command [.str "FLUSHDB"]).map (·.inOK)

/-- Delete all keys in all databases. -/
def flushall : ClientScript Bool :=
  (command [.str "FLUSHALL"]).map (·.inOK)

/-- Create a pipeline for batching multiple commands. -/
def pipeline (limit : ℕ) (c : KacheClient) (env : Acquire) : Except Exc Pipeline × KacheClient :=
  match c.getConn limit env with
  | (.ok conn, c') => (.ok ⟨conn, []⟩, c')
  | (.error e, c') => (.error e, c')

/-- No command is queued on a new pipeline. -/
lemma commands_of_pipeline {limit : ℕ} {client client' : KacheClient} {env : Acquire}
    {p : Pipeline} (h : client.pipeline limit env = (.ok p, client')) : p.commands = [] := by
  unfold KacheClient.pipeline at h
  rcases hget : client.getConn limit env with ⟨e | conn, c'⟩
  · rw [hget] at h
    cases h
  · rw [hget] at h
    obtain rfl := Except.ok.inj (Prod.mk.inj h).1
    rfl

end KacheClient

/-- Create an async pipeline for batching commands. -/
def AsyncKacheClient.pipeline (c : AsyncKacheClient) : Except Exc AsyncPipeline :=
  match c.stream with
  | none => .error (.connectionError "Not connected to KacheDB")
  | some s => .ok ⟨s, []⟩

/-- No command is queued on a new asynchronous pipeline. -/
lemma AsyncKacheClient.commands_of_pipeline {client : AsyncKacheClient} {q : AsyncPipeline}
    (h : client.pipeline = .ok q) : q.commands = [] := by
  unfold AsyncKacheClient.pipeline at h
  cases hs : client.stream with
  | none => simp [hs] at h
  | some s =>
    rw [hs] at h
    obtain rfl := Except.ok.inj h
    rfl

/-! ## The methods of the pipeline -/

namespace Pipeline

variable (p : Pipeline)

/-- Queue a PING command. -/
def ping : Pipeline :=
  p.queue [.str "PING"]

/-- Queue a GET command. -/
def get (key : Arg) : Pipeline :=
  p.queue [.str "GET", key]

/-- Queue a SET command with optional TTL. -/
def set (key value : Arg) (ex px : Option ℤ) : Pipeline :=
  { p with commands := p.commands ++ [setCommand key value ex px] }

/-- Queue an MGET command. -/
def mget (keys : List Arg) : Pipeline :=
  p.queue (.str "MGET" :: keys)

/-- Queue a DEL command. -/
def delete (keys : List Arg) : Pipeline :=
  p.queue (.str "DEL" :: keys)

/-- Queue an EXISTS command. -/
def existsKeys (keys : List Arg) : Pipeline :=
  p.queue (.str "EXISTS" :: keys)

/-- Queue an MSET command. -/
def mset (mapping : Dict Arg Arg) : Pipeline :=
  p.queue (msetCommand mapping)

/-- Queue an INCR / INCRBY command. -/
def incr (key : Arg) (amount : ℤ) : Pipeline :=
  p.queue (countCommand "INCR" "INCRBY" key amount)

/-- Queue an INCRBY command. -/
def incrby (key : Arg) (amount : ℤ) : Pipeline :=
  p.incr key amount

/-- Queue a DECR / DECRBY command. -/
def decr (key : Arg) (amount : ℤ) : Pipeline :=
  p.queue (countCommand "DECR" "DECRBY" key amount)

/-- Queue a DECRBY command. -/
def decrby (key : Arg) (amount : ℤ) : Pipeline :=
  p.decr key amount

/-- Queue an APPEND command. -/
def append (key value : Arg) : Pipeline :=
  p.queue [.str "APPEND", key, value]

/-- Queue a STRLEN command. -/
def strlen (key : Arg) : Pipeline :=
  p.queue [.str "STRLEN", key]

/-- Queue an EXPIRE command. -/
def expire (key : Arg) (seconds : ℤ) : Pipeline :=
  p.queue [.str "EXPIRE", key, .str (toString seconds)]

/-- Queue a PEXPIRE command. -/
def pexpire (key : Arg) (milliseconds : ℤ) : Pipeline :=
  p.queue [.str "PEXPIRE", key, .str (toString milliseconds)]

/-- Queue an EXPIREAT command. -/
def expireat (key : Arg) (timestamp : ℤ) : Pipeline :=
  p.queue [.str "EXPIREAT", key, .str (toString timestamp)]

/-- Queue a PEXPIREAT command. -/
def pexpireat (key : Arg) (timestampMs : ℤ) : Pipeline :=
  p.queue [.str "PEXPIREAT", key, .str (toString timestampMs)]

/-- Queue a TTL command. -/
def ttl (key : Arg) : Pipeline :=
  p.queue [.str "TTL", key]

/-- Queue a PTTL command. -/
def pttl (key : Arg) : Pipeline :=
  p.queue [.str "PTTL", key]

/-- Queue a PERSIST command. -/
def persist (key : Arg) : Pipeline :=
  p.queue [.str "PERSIST", key]

/-- Queue a DBSIZE command. -/
def dbsize : Pipeline :=
  p.queue [.str "DBSIZE"]

/-- Queue a TYPE command. -/
def type (key : Arg) : Pipeline :=
  p.queue [.str "TYPE", key]

/-- Queue a FLUSHDB command. -/
def flushdb : Pipeline :=
  p.queue [.str "FLUSHDB"]

/-- Queue a FLUSHALL command. -/
def flushall : Pipeline :=
  p.queue [.str "FLUSHALL"]

end Pipeline

/-! ## The methods of the asynchronous pipeline -/

namespace AsyncPipeline

variable (p : AsyncPipeline)

/-- Queue a PING command. -/
def ping : AsyncPipeline :=
  p.queue [.str "PING"]

/-- Queue a GET command. -/
def get (key : Arg) : AsyncPipeline :=
  p.queue [.str "GET", key]

/-- Queue a SET command with optional TTL. -/
def set (key value : Arg) (ex px : Option ℤ) : AsyncPipeline :=
  { p with commands := p.commands ++ [setCommand key value ex px] }

/-- Queue an MGET command. -/
def mget (keys : List Arg) : AsyncPipeline :=
  p.queue (.str "MGET" :: keys)

/-- Queue a DEL command. -/
def delete (keys : List Arg) : AsyncPipeline :=
  p.queue (.str "DEL" :: keys)

/-- Queue an EXISTS command. -/
def existsKeys (keys : List Arg) : AsyncPipeline :=
  p.queue (.str "EXISTS" :: keys)

/-- Queue an MSET command. -/
def mset (mapping : Dict Arg Arg) : AsyncPipeline :=
  p.queue (msetCommand mapping)

/-- Queue an INCR / INCRBY command. -/
def incr (key : Arg) (amount : ℤ) : AsyncPipeline :=
  p.queue (countCommand "INCR" "INCRBY" key amount)

/-- Queue an INCRBY command. -/
def incrby (key : Arg) (amount : ℤ) : AsyncPipeline :=
  p.incr key amount

/-- Queue a DECR / DECRBY command. -/
def decr (key : Arg) (amount : ℤ) : AsyncPipeline :=
  p.queue (countCommand "DECR" "DECRBY" key amount)

/-- Queue a DECRBY command. -/
def decrby (key : Arg) (amount : ℤ) : AsyncPipeline :=
  p.decr key amount

/-- Queue an APPEND command. -/
def append (key value : Arg) : AsyncPipeline :=
  p.queue [.str "APPEND", key, value]

/-- Queue a STRLEN command. -/
def strlen (key : Arg) : AsyncPipeline :=
  p.queue [.str "STRLEN", key]

/-- Queue an EXPIRE command. -/
def expire (key : Arg) (seconds : ℤ) : AsyncPipeline :=
  p.queue [.str "EXPIRE", key, .str (toString seconds)]

/-- Queue a PEXPIRE command. -/
def pexpire (key : Arg) (milliseconds : ℤ) : AsyncPipeline :=
  p.queue [.str "PEXPIRE", key, .str (toString milliseconds)]

/-- Queue an EXPIREAT command. -/
def expireat (key : Arg) (timestamp : ℤ) : AsyncPipeline :=
  p.queue [.str "EXPIREAT", key, .str (toString timestamp)]

/-- Queue a PEXPIREAT command. -/
def pexpireat (key : Arg) (timestampMs : ℤ) : AsyncPipeline :=
  p.queue [.str "PEXPIREAT", key, .str (toString timestampMs)]

/-- Queue a TTL command. -/
def ttl (key : Arg) : AsyncPipeline :=
  p.queue [.str "TTL", key]

/-- Queue a PTTL command. -/
def pttl (key : Arg) : AsyncPipeline :=
  p.queue [.str "PTTL", key]

/-- Queue a PERSIST command. -/
def persist (key : Arg) : AsyncPipeline :=
  p.queue [.str "PERSIST", key]

/-- Queue a DBSIZE command. -/
def dbsize : AsyncPipeline :=
  p.queue [.str "DBSIZE"]

/-- Queue a TYPE command. -/
def type (key : Arg) : AsyncPipeline :=
  p.queue [.str "TYPE", key]

/-- Queue a FLUSHDB command. -/
def flushdb : AsyncPipeline :=
  p.queue [.str "FLUSHDB"]

/-- Queue a FLUSHALL command. -/
def flushall : AsyncPipeline :=
  p.queue [.str "FLUSHALL"]

end AsyncPipeline

end KacheDB
