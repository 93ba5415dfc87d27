import KacheDB.Foundation.Bytes

/-!
# Decoded values and exceptions

The values that a RESP reply decodes to, and the exceptions that the client library raises or
lets through: its own hierarchy, rooted at `KacheDBError`, and the built-in ones.  A text that
the library composes is part of the exception; of a built-in exception only the text that the
library itself quotes is kept.
-/

namespace KacheDB

open Foundation

/-- A decoded RESP value. -/
inductive RespValue : Type where
  | str (s : String)
  | bytes (b : Bytes)
  | int (n : ℤ)
  | list (items : List RespValue)
  | none

/-- An exception. -/
inductive Exc : Type where
  /-- `kachedb.exceptions.ConnectionError`. -/
  | connectionError (text : String)
  /-- The `ConnectionError` "Authentication failed: " with the `repr` of the response; the
  response itself is kept. -/
  | authenticationFailed (res : RespValue)
  /-- `kachedb.exceptions.TimeoutError`. -/
  | timeoutError (text : String)
  /-- `kachedb.exceptions.ResponseError`, raised for a RESP error reply. -/
  | responseError (text : String)
  /-- `kachedb.exceptions.ProtocolError`. -/
  | protocolError (text : String)
  /-- `kachedb.exceptions.PoolExhaustedError`. -/
  | poolExhaustedError (text : String)
  /-- `builtins.TimeoutError`, raised by a socket operation. -/
  | builtinTimeout (text : String)
  /-- Any other `OSError`. -/
  | osError (text : String)
  /-- `ValueError`. -/
  | valueError (text : String)
  /-- `UnicodeDecodeError`. -/
  | unicodeDecodeError
  /-- `RecursionError`, raised at the interpreter's recursion limit. -/
  | recursionError
  /-- `RuntimeError`. -/
  | runtimeError (text : String)
  /-- `asyncio.CancelledError`, which is not an `Exception`. -/
  | cancelledError
  /-- `struct.error`. -/
  | structError
  /-- `IndexError`. -/
  | indexError
  /-- `AttributeError`. -/
  | attributeError
  /-- `ZeroDivisionError`. -/
  | zeroDivisionError
  /-- `OverflowError`. -/
  | overflowError

/-- The exceptions that `except Exception` catches. -/
def Exc.isException : Exc → Bool
  | .cancelledError => false
  | _ => true

/-- The exceptions that `except OSError` catches; `builtins.TimeoutError` is one of them. -/
def Exc.isOSError : Exc → Bool
  | .builtinTimeout _ => true
  | .osError _ => true
  | _ => false

/-- An `OSError` is an `Exception`. -/
lemma Exc.isException_of_isOSError {e : Exc} (h : e.isOSError = true) : e.isException = true := by
  cases e <;> simp_all [isOSError, isException]

end KacheDB
