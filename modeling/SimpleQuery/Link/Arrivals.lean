import SimpleQuery.Link

/-!
# What arrives

How deliveries are cut into pieces is an accident; what matters is which bytes arrive before the next
*barrier*, a fault or an end of the stream. `Link.joined` is the form of a list of deliveries without
the accident.

Model of what a socket's `recv` will bring.
-/

set_option autoImplicit false

namespace SimpleQuery.Link

/-- What ends the bytes that arrive. -/
inductive Barrier where
  | endOfStream
  | fault (reason : String)
  deriving DecidableEq, Repr

/-- The bytes that arrive before the next barrier, and that barrier. -/
def arrivals : List Delivery → Bytes × Barrier
  | [] => ([], .endOfStream)
  | .fault reason :: _ => ([], .fault reason)
  | .bytes [] :: _ => ([], .endOfStream)
  | .bytes (b :: chunk) :: rest => (b :: chunk ++ (arrivals rest).1, (arrivals rest).2)

/-- Adds bytes in front of deliveries, to the first of them if it has some. -/
def joinFront (chunk : Bytes) : List Delivery → List Delivery
  | .bytes (b :: more) :: rest => .bytes (chunk ++ b :: more) :: rest
  | rest => .bytes chunk :: rest

/-- The deliveries with those that have bytes joined to their neighbours that do. -/
def joined : List Delivery → List Delivery
  | [] => []
  | .fault reason :: rest => .fault reason :: joined rest
  | .bytes [] :: rest => .bytes [] :: joined rest
  | .bytes (b :: chunk) :: rest => joinFront (b :: chunk) (joined rest)

end SimpleQuery.Link
