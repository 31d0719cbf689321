import TradingBot.OrderManager

namespace TradingBot

/-! The calls that notify, and callbacks that may throw. -/

inductive OrderCall where
  | placeOrder (order : Order)
  | cancelOrder (orderId : UInt64)
  | modifyOrder (orderId : UInt64) (newPrice : Rat) (newQuantity : UInt64)
  | simulateOrderExecution (orderId : UInt64) (executionPrice : Rat)
      (executedQuantity : UInt64)

def Call.reporting {Result : Type} (call : Call Result)
    (success : Result → Bool) : Call Bool :=
  { manager := call.manager
    notified := call.notified
    result := success call.result }

namespace OrderCall

/-- The result is whether the call reports success; only `cancelOrder` and
`modifyOrder` can report failure. -/
def apply (manager : OrderManager) : OrderCall → Call Bool
  | .placeOrder order =>
      (manager.placeOrder order).reporting fun _ => true
  | .cancelOrder orderId => manager.cancelOrder orderId
  | .modifyOrder orderId newPrice newQuantity =>
      manager.modifyOrder orderId newPrice newQuantity
  | .simulateOrderExecution orderId executionPrice executedQuantity =>
      (manager.simulateOrderExecution orderId executionPrice
        executedQuantity).reporting fun _ => true

/-- The order the call looks up. -/
def target? : OrderCall → Option UInt64
  | .placeOrder _ => none
  | .cancelOrder orderId => some orderId
  | .modifyOrder orderId _ _ => some orderId
  | .simulateOrderExecution orderId _ _ => some orderId

end OrderCall

/-- A callback throws an exception or returns. -/
abbrev OrderCallback (Exception : Type) := Order → Except Exception Unit

section Throwing

variable {Exception : Type}

def notifyOrderChanged (callbacks : List (OrderCallback Exception))
    (order : Order) : Except Exception Unit :=
  callbacks.forM fun callback => callback order

namespace OrderManager

/-- A call as its caller sees it: the members it leaves behind, and its result
or the exception of a callback. -/
def perform (manager : OrderManager)
    (callbacks : List (OrderCallback Exception)) (call : OrderCall) :
    OrderManager × Except Exception Bool :=
  let performed := call.apply manager
  match performed.notified with
  | none => (performed.manager, .ok performed.result)
  | some order =>
      (performed.manager,
        (notifyOrderChanged callbacks order).map fun _ => performed.result)

end OrderManager

end Throwing

end TradingBot
