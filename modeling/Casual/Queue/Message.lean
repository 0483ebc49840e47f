/-
`common/message/queue.h`: the messages a queue group gets and sends.
-/
import Casual.Common.Transaction
import Casual.Communication.Message

namespace Casual.Queue

open Casual.Common Casual.Communication

/-- `buffer::Type`. -/
structure BufferType where
  name : String
  subname : String
  deriving DecidableEq, Repr

/-- What leaves a function of a queue group: an error of a database statement, or a queue of a
receiver that is no longer there. -/
inductive Exception
  | query
  | unavailable
  deriving DecidableEq, Repr

namespace Message

/-- `base_message`, the message of an enqueue request. The payload is what `parameter_bind` makes of
the vector: `none` when its data is a null pointer, as of a vector that never held a byte. -/
structure Base where
  id : Uuid
  properties : String
  reply : String
  avalible : Int
  type : BufferType
  payload : Option (List UInt8)
  deriving DecidableEq, Repr

/-- `enqueue::Request`. -/
structure EnqueueRequest where
  correlation : Uuid
  process : Process
  trid : Option Transaction.ID
  queue : Nat
  message : Base
  deriving DecidableEq

/-- `enqueue::Reply`. -/
structure EnqueueReply where
  id : Uuid
  deriving DecidableEq, Repr

/-- `dequeue::Selector`. -/
structure Selector where
  properties : String
  id : Uuid
  deriving DecidableEq, Repr

/-- `dequeue::Request`. -/
structure DequeueRequest where
  correlation : Uuid
  process : Process
  trid : Option Transaction.ID
  queue : Nat
  selector : Selector
  block : Bool
  deriving DecidableEq

/-- `dequeue::Reply::Message`. -/
structure Dequeued where
  id : Uuid
  properties : String
  reply : String
  redelivered : Nat
  type : BufferType
  avalible : Int
  timestamp : Int
  payload : Option (List UInt8)
  deriving DecidableEq, Repr

/-- `dequeue::forget::Request`. -/
structure ForgetRequest where
  correlation : Uuid
  process : Process
  queue : Nat
  deriving DecidableEq, Repr

/-- `transaction::resource::commit::Request` and `rollback::Request`, as a queue group gets them. -/
structure TransactionRequest where
  correlation : Uuid
  process : Process
  trid : Transaction.ID
  deriving DecidableEq

/-- `dequeue::Reply`, with its correlation. -/
structure DequeueReply where
  correlation : Uuid
  message : List Dequeued
  deriving DecidableEq, Repr

end Message

end Casual.Queue
