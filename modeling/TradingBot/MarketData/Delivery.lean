import TradingBot.MarketData.Feed

namespace TradingBot

open Library

/-! What each listener is called with, from the calls alone. -/

/-- The `subscribe` calls of a listener since its last `unsubscribe`. -/
def subscriptions (events : List MarketEvent) (symbol : String)
    (listener : ListenerId) : Nat :=
  (events.rtakeWhile fun event =>
    decide (event ≠ .unsubscribe symbol listener)).count
      (.subscribe symbol listener)

/-- How often a listener is called with what is published after the events. -/
def copies (events : List MarketEvent) (symbol : String)
    (listener : ListenerId) : Nat :=
  if MarketEvent.destroy listener ∈ events then 0
  else subscriptions events symbol listener

def ticksDue (listener : ListenerId) (earlier : List MarketEvent) :
    MarketEvent → List MarketTick
  | .publishTick tick =>
      List.replicate (copies earlier tick.symbol listener) tick
  | _ => []

def booksDue (listener : ListenerId) (earlier : List MarketEvent) :
    MarketEvent → List OrderBook
  | .publishOrderBook book =>
      List.replicate (copies earlier book.symbol listener) book
  | _ => []

def noticesDue (listener : ListenerId) (earlier : List MarketEvent) :
    MarketEvent → List Notice
  | .publishTick tick =>
      List.replicate (copies earlier tick.symbol listener) (.onTick tick)
  | .publishOrderBook book =>
      List.replicate (copies earlier book.symbol listener) (.onOrderBook book)
  | _ => []

theorem subscriptions_concat (events : List MarketEvent) (event : MarketEvent)
    (symbol : String) (listener : ListenerId) :
    subscriptions (events ++ [event]) symbol listener =
      if event = .unsubscribe symbol listener then 0
      else
        subscriptions events symbol listener +
          if event = .subscribe symbol listener then 1 else 0 := by
  rw [subscriptions, List.rtakeWhile_concat]
  simp only [decide_eq_true_eq, ite_not]
  split
  next => rfl
  next => rw [List.count_append, List.count_singleton, subscriptions]; simp

theorem MarketEvent.count_advance {expired : ListenerId → Bool}
    {listener : ListenerId} (live : expired listener = false) (symbol : String)
    (data : SymbolData) (event : MarketEvent) :
    (event.advance expired symbol data).listeners.count listener =
      if event = .unsubscribe symbol listener then 0
      else
        data.listeners.count listener +
          if event = .subscribe symbol listener then 1 else 0 := by
  cases event with
  | subscribe other new =>
      rcases eq_or_ne symbol other with rfl | differ
      · simp [advance, List.count_append, List.count_singleton]
      · simp [advance, differ, differ.symm]
  | unsubscribe other gone =>
      rcases eq_or_ne symbol other with rfl | differ
      · rcases eq_or_ne gone listener with rfl | kept
        · simp [advance, List.count_eq_zero]
        · simp [advance, List.count_filter, live, kept, kept.symm]
      · simp [advance, differ, differ.symm]
  | publishTick tick =>
      simp only [advance, reduceCtorEq, if_false, Nat.add_zero]
      split <;> rfl
  | publishOrderBook book =>
      simp only [advance, reduceCtorEq, if_false, Nat.add_zero]
      split <;> rfl
  | destroy other => simp [advance]

namespace Market

def listeners (market : Market) (symbol : String) : List ListenerId :=
  ((market.data symbol).getD default).listeners

theorem listeners_apply (market : Market) (event : MarketEvent)
    (symbol : String) :
    (market.apply event).listeners symbol =
      (event.advance market.expired symbol
        ((market.data symbol).getD default)).listeners := by
  rw [listeners, data_apply]
  split
  next => rfl
  next silent =>
      cases held : market.data symbol with
      | some data => rfl
      | none =>
          -- only a `subscribe` would give the symbol an entry
          cases event with
          | subscribe other new =>
              have differ : symbol ≠ other := by
                simpa [MarketEvent.subscribes, eq_comm] using silent
              simp [MarketEvent.advance, differ]
          | destroy other => rfl
          | _ =>
              simp only [MarketEvent.advance]
              split <;> rfl

theorem expired_after (events : List MarketEvent) (listener : ListenerId) :
    (after events).expired listener =
      decide (MarketEvent.destroy listener ∈ events) := by
  induction events using List.reverseRecOn with
  | nil => rfl
  | append_singleton events event induction =>
      rw [after_concat]
      cases event with
      | destroy other => simp_all [apply, expired, or_comm]
      | _ => simp_all [apply, expired, notify]

/-- A live listener is listed once for each of its subscriptions. -/
theorem count_listeners {events : List MarketEvent} {listener : ListenerId}
    (live : MarketEvent.destroy listener ∉ events) (symbol : String) :
    ((after events).listeners symbol).count listener =
      subscriptions events symbol listener := by
  induction events using List.reverseRecOn with
  | nil => rfl
  | append_singleton events event induction =>
      have before : MarketEvent.destroy listener ∉ events := fun member =>
        live (List.mem_append_left _ member)
      have present : (after events).expired listener = false := by
        rw [expired_after]
        exact decide_eq_false before
      rw [after_concat, listeners_apply, MarketEvent.count_advance present,
        subscriptions_concat, ← induction before, listeners]

theorem notices_of_listener (notice : Notice) (called : List ListenerId)
    (listener : ListenerId) :
    ((called.map fun other => (other, notice)).filterMap fun entry =>
        if entry.1 = listener then some entry.2 else none) =
      List.replicate (called.count listener) notice := by
  induction called with
  | nil => rfl
  | cons other rest induction =>
      rcases eq_or_ne other listener with rfl | differ
      · simpa [List.replicate_succ] using induction
      · simpa [differ] using induction

theorem noticesTo_notify (market : Market) (notice : Notice)
    (published : MarketDataHandler × List ListenerId)
    (listener : ListenerId) :
    (market.notify notice published).noticesTo listener =
      market.noticesTo listener ++
        List.replicate (published.2.count listener) notice := by
  rw [noticesTo, notify, List.filterMap_append, notices_of_listener]
  rfl

theorem count_live (events : List MarketEvent) (symbol : String) (listener : ListenerId) :
    (((after events).listeners symbol).filter fun other =>
      !(after events).expired other).count listener =
      copies events symbol listener := by
  unfold copies
  split
  next destroyed =>
      rw [List.count_eq_zero, List.mem_filter]
      simp [expired_after, destroyed]
  next live =>
      rw [← count_listeners live]
      apply List.count_filter
      simp [expired_after, live]

theorem called_publishTick (market : Market) (tick : MarketTick) :
    (market.handler.publishTick market.expired tick).2 =
      (market.listeners tick.symbol).filter fun listener =>
        !market.expired listener := by
  rw [listeners, data, MarketDataHandler.publishTick]
  split
  next absent => rw [absent]; rfl
  next data found => rw [found]; rfl

theorem called_publishOrderBook (market : Market) (book : OrderBook) :
    (market.handler.publishOrderBook market.expired book).2 =
      (market.listeners book.symbol).filter fun listener =>
        !market.expired listener := by
  rw [listeners, data, MarketDataHandler.publishOrderBook]
  split
  next absent => rw [absent]; rfl
  next data found => rw [found]; rfl

theorem noticesTo_after (events : List MarketEvent) (listener : ListenerId) :
    (after events).noticesTo listener =
      eachAfter (noticesDue listener) events := by
  induction events using List.reverseRecOn with
  | nil => rfl
  | append_singleton events event induction =>
      rw [after_concat, eachAfter_concat, ← induction]
      cases event with
      | publishTick tick =>
          rw [apply, noticesTo_notify, called_publishTick, count_live]
          rfl
      | publishOrderBook book =>
          rw [apply, noticesTo_notify, called_publishOrderBook, count_live]
          rfl
      | _ => exact (List.append_nil _).symm

end Market

theorem filterMap_noticesDue_tick? (listener : ListenerId)
    (earlier : List MarketEvent) (event : MarketEvent) :
    (noticesDue listener earlier event).filterMap Notice.tick? =
      ticksDue listener earlier event := by
  cases event with
  | publishTick tick => exact List.filterMap_replicate_of_some rfl
  | publishOrderBook book => simp [noticesDue, ticksDue, Notice.tick?]
  | _ => rfl

theorem filterMap_noticesDue_orderBook? (listener : ListenerId)
    (earlier : List MarketEvent) (event : MarketEvent) :
    (noticesDue listener earlier event).filterMap Notice.orderBook? =
      booksDue listener earlier event := by
  cases event with
  | publishTick tick => simp [noticesDue, booksDue, Notice.orderBook?]
  | publishOrderBook book => exact List.filterMap_replicate_of_some rfl
  | _ => rfl

/-- The event ends or destroys the subscriptions of a listener. -/
def MarketEvent.Removes (listener : ListenerId) : MarketEvent → Prop
  | .unsubscribe _ other => other = listener
  | .destroy other => other = listener
  | _ => False

section Without

variable {other listener : ListenerId} {event : MarketEvent}

theorem subscriptions_without (differ : other ≠ listener)
    (removes : event.Removes other) (before later : List MarketEvent)
    (symbol : String) :
    subscriptions (before ++ event :: later) symbol listener =
      subscriptions (before ++ later) symbol listener := by
  induction later using List.reverseRecOn with
  | nil =>
      rw [List.append_nil, subscriptions_concat]
      cases event with
      | unsubscribe key gone =>
          simp [show gone = other from removes, differ]
      | destroy gone => simp
      | _ => exact removes.elim
  | append_singleton rest last induction =>
      rw [← List.cons_append, ← List.append_assoc, ← List.append_assoc,
        subscriptions_concat, subscriptions_concat, induction]

theorem copies_without (differ : other ≠ listener)
    (removes : event.Removes other) (before later : List MarketEvent)
    (symbol : String) :
    copies (before ++ event :: later) symbol listener =
      copies (before ++ later) symbol listener := by
  have unrelated : MarketEvent.destroy listener ≠ event := by
    intro same
    subst same
    exact differ removes.symm
  unfold copies
  rw [subscriptions_without differ removes]
  simp only [List.mem_append, List.mem_cons, unrelated, false_or]

theorem noticesDue_without (differ : other ≠ listener)
    (removes : event.Removes other) (before later : List MarketEvent) :
    noticesDue listener (before ++ event :: later) =
      noticesDue listener (before ++ later) := by
  funext published
  cases published with
  | publishTick tick =>
      rw [noticesDue, noticesDue, copies_without differ removes]
  | publishOrderBook book =>
      rw [noticesDue, noticesDue, copies_without differ removes]
  | _ => rfl

theorem noticesTo_without (differ : other ≠ listener)
    (removes : event.Removes other) (before later : List MarketEvent) :
    (Market.after (before ++ event :: later)).noticesTo listener =
      (Market.after (before ++ later)).noticesTo listener := by
  have silent : noticesDue listener before event = [] := by
    cases event with
    | unsubscribe => rfl
    | destroy => rfl
    | _ => exact removes.elim
  rw [Market.noticesTo_after, Market.noticesTo_after, eachAfter_append,
    eachAfter_append, eachAfter, List.append_nil, silent, List.nil_append]
  simp only [noticesDue_without differ removes]

end Without

/-- A listener receives every published tick and book as often as it is
subscribed at that moment, in order, and the end of another listener changes
nothing for it. -/
theorem deliveries_follow_subscriptions (events : List MarketEvent)
    (listener : ListenerId) :
    ((Market.after events).noticesTo listener).filterMap Notice.tick? =
        eachAfter (ticksDue listener) events ∧
      ((Market.after events).noticesTo listener).filterMap Notice.orderBook? =
        eachAfter (booksDue listener) events ∧
      ∀ before event later other, events = before ++ event :: later →
        other ≠ listener → event.Removes other →
        (Market.after events).noticesTo listener =
          (Market.after (before ++ later)).noticesTo listener := by
  refine ⟨?_, ?_, ?_⟩
  · rw [Market.noticesTo_after, filterMap_eachAfter]
    simp only [filterMap_noticesDue_tick?]
  · rw [Market.noticesTo_after, filterMap_eachAfter]
    simp only [filterMap_noticesDue_orderBook?]
  · intro before event later other split differ removes
    subst split
    exact noticesTo_without differ removes before later

end TradingBot
