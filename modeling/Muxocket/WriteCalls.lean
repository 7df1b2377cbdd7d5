import Muxocket.Config

/-!
# Calls that write

`Write` sends the bytes it is given while it holds the write lock.  `ReadFrom` reads from its
source into a buffer, sends that under the lock, and begins again until the source ends.  What the
models of the writing side of a channel need of the two calls is defined here.
-/

namespace Muxocket

/-- A call: `Write` of some bytes, or `ReadFrom`. -/
inductive WriteCall where
  | write (b : Bytes)
  | readFrom
deriving DecidableEq, Repr

/-- What a source reports besides data. -/
inductive SourceError where
  | eof
  | failure
deriving DecidableEq, Repr

/-- What a call sends while it holds the write lock: the bytes of a `Write`, or the first `n`
bytes of the buffer into which a `ReadFrom` has read, which had sent `total` bytes before. -/
inductive WriteJob (β : Type) where
  | write (b : Bytes)
  | relay (total : Nat) (buf : β) (n : Nat) (rerr : Option SourceError)
deriving DecidableEq, Repr

/-- Where a `ReadFrom` goes when it is done with what it has read: it returns, without an error at
the end of its source, or reads again. -/
def SourceError.after {Place Error : Type} (returned : Option Error → Place) (source : Error)
    (again : Place) : Option SourceError → Place
  | some .eof => returned none
  | some .failure => returned (some source)
  | none => again

namespace WriteJob

variable {β : Type}

/-- The number of bytes to send. -/
def size : WriteJob β → Nat
  | .write b => b.length
  | .relay _ _ n _ => n

/-- The number of bytes the call had sent before. -/
def base : WriteJob β → Nat
  | .write _ => 0
  | .relay total _ _ _ => total

/-- The credit that is asked for after `sent` bytes. -/
def desired (cfg : SessionConfig) (sent : Nat) : WriteJob β → Nat
  | .write b => min (b.length - sent) cfg.maxFrameDataSize
  | .relay _ _ n _ => n - sent

/-- Where a call goes when it has released the lock. -/
def leave {Place Error : Type} (returned : Nat → Option Error → Place)
    (afterRead : Nat → β → Option SourceError → Place) (sent : Nat) (err : Option Error) :
    WriteJob β → Place
  | .write _ => returned sent err
  | .relay total buf _ rerr =>
      match err with
      | some e => returned (total + sent) (some e)
      | none => afterRead (total + sent) buf rerr

end WriteJob

end Muxocket
