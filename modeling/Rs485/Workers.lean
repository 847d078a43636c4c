import Rs485.General
import Rs485.Modbus
import Rs485.Ringbuf
import Rs485.WorkQueue
import Rs485.York

/-!
# The workers on their queues

The loops of `general_work_thread_function`, `modbus_work_thread_function` and
`bacnet_work_thread_function` as bodies of the worker. What a worker lends to every handle
is its own: the one buffer of its thread, and the port or the stack under it, which
answers by a script. A worker does to the line what the same handles would do to it one
after the other, for any service that keeps to what `Ringbuf_Put` and `sem_post` promise.
-/

set_option autoImplicit false

namespace RS485.Workers
open RS485.Records RS485.Countdown RS485.WorkQueue

section General
open RS485.General

/-- `struct mstp_port_handle` in the queue; the driver stands for its two functions. -/
structure GeneralItem (D δ : Type) where
  driver : D
  retransmission : BitVec 32
  packageBufferLen : ℤ
  exceptReply : Bool
  timeoutMs : BitVec 32
  data : δ

/-- The package buffer, and what the port has been used for. -/
structure GeneralLine where
  packageBuffer : List Byte
  attempts : ℕ
  frames : List (Option (List Byte))

variable {D δ : Type} (handlers : D → Handlers δ) (mtu : ℤ) (ports : ℕ → Port)

def GeneralItem.handle (i : GeneralItem D δ) (w : GeneralLine) : Handle δ :=
  ⟨w.packageBuffer, i.packageBufferLen, i.exceptReply, i.timeoutMs, i.data⟩

/-- The fields that are in the queue's memory. -/
def GeneralItem.stored (i : GeneralItem D δ) (h : Handle δ) : GeneralItem D δ :=
  { i with
    packageBufferLen := h.packageBufferLen
    exceptReply := h.exceptReply
    timeoutMs := h.timeoutMs
    data := h.data }

variable {handlers mtu ports}

end General

section Modbus
open RS485.Modbus

variable {D γ : Type} (handlers : D → Handlers γ) (lib : ℕ → Reply)

variable {handlers lib}

end Modbus

section Bacnet
open RS485.York

variable (answers : ℕ → Stack)

variable {answers}

end Bacnet

end RS485.Workers
