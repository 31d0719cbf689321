import TradingBot.Risk.NetPosition
import TradingBot.Library.Machine

namespace TradingBot

open Library

/-! Clients that check `canOpenPosition` and act on its answer later. -/

/-- `granted` has the checks that were answered true and not yet acted on, by
whichever client, and `booked` the trades passed to `updatePosition`. -/
structure Clients where
  manager : RiskManager
  granted : List (String × UInt64)
  booked : List Trade

inductive ClientAction where
  | canOpenPosition (symbol : String) (quantity : UInt64)
  | updatePosition (trade : Trade) (contents : Uninitialized)

namespace Clients

def canOpenPosition (clients : Clients) (symbol : String)
    (quantity : UInt64) : Clients :=
  if clients.manager.canOpenPosition symbol quantity then
    { clients with granted := clients.granted ++ [(symbol, quantity)] }
  else clients

def updatePosition (clients : Clients) (trade : Trade)
    (contents : Uninitialized) : Option Clients :=
  if (trade.symbol, trade.quantity) ∈ clients.granted then
    some
      { manager := clients.manager.updatePosition trade contents
        granted := clients.granted.erase (trade.symbol, trade.quantity)
        booked := clients.booked ++ [trade] }
  else none

def step (clients : Clients) : ClientAction → Option Clients
  | .canOpenPosition symbol quantity =>
      some (clients.canOpenPosition symbol quantity)
  | .updatePosition trade contents => clients.updatePosition trade contents

def init (limits : RiskLimits) : Clients where
  manager := RiskManager.init.setRiskLimits limits
  granted := []
  booked := []

def machine (limits : RiskLimits) : Machine Clients ClientAction where
  init := init limits
  step := step

/-- The limit on every position, its quantity counted without wrapping. -/
def PositionsWithin (clients : Clients) : Prop :=
  ∀ symbol position, clients.manager.getPosition symbol = some position →
    (tradedQuantity clients.booked symbol : Rat) ≤
      clients.manager.limits.maxPositionSize

/-- Trades for granted checks, whatever else they say. -/
def bookings (trades : List (Trade × Uninitialized)) : List ClientAction :=
  trades.map fun entry => .updatePosition entry.1 entry.2

/-- The limit holds, also once any of the granted checks are acted on. -/
def StaysWithin (limits : RiskLimits) (clients : Clients) : Prop :=
  ∀ trades, (machine limits).Throughout PositionsWithin clients
    (bookings trades)

def grantedQuantity (clients : Clients) (symbol : String) : Nat :=
  groupSum Prod.fst (fun grant : String × UInt64 => grant.2.toNat)
    clients.granted symbol

/-- What the symbol holds once all granted checks have been acted on. -/
def committed (clients : Clients) (symbol : String) : Nat :=
  tradedQuantity clients.booked symbol + clients.grantedQuantity symbol

/-- A check is answered true only if its quantity fits on top of what is held
and granted. -/
def GrantsFit (clients : Clients) : ClientAction → Prop
  | .canOpenPosition symbol quantity =>
      clients.manager.canOpenPosition symbol quantity = true →
        (clients.committed symbol + quantity.toNat : Nat) ≤
          clients.manager.limits.maxPositionSize
  | .updatePosition _ _ => True

theorem updatePosition_eq_some {clients next : Clients} {trade : Trade}
    {contents : Uninitialized} :
    clients.updatePosition trade contents = some next ↔
      (trade.symbol, trade.quantity) ∈ clients.granted ∧
        next =
          { manager := clients.manager.updatePosition trade contents
            granted := clients.granted.erase (trade.symbol, trade.quantity)
            booked := clients.booked ++ [trade] } := by
  rw [updatePosition, Option.ite_none_right_eq_some, Option.some_inj,
    eq_comm (a := next)]

def Involved (clients : Clients) (symbol : String) : Prop :=
  (∃ trade ∈ clients.booked, trade.symbol = symbol) ∨
    ∃ grant ∈ clients.granted, grant.1 = symbol

structure Granting (clients : Clients) : Prop where
  books : clients.manager.KeepsBooks clients.booked
  fits : ∀ symbol, clients.Involved symbol →
    (clients.committed symbol : Rat) ≤ clients.manager.limits.maxPositionSize

theorem granting_init (limits : RiskLimits) : (init limits).Granting where
  books := RiskManager.keepsBooks_init
  fits := by
    intro symbol involved
    rcases involved with ⟨_, member, _⟩ | ⟨_, member, _⟩
    · cases member
    · cases member

theorem Granting.within {clients : Clients} (granting : clients.Granting) :
    clients.PositionsWithin := by
  intro symbol position held
  have traded := granting.books.symbol_traded held
  have fits := granting.fits symbol (.inl traded)
  refine le_trans ?_ fits
  exact_mod_cast Nat.le_add_right _ _

theorem committed_grant (clients : Clients) (symbol key : String)
    (quantity : UInt64) :
    committed { clients with
        granted := clients.granted ++ [(symbol, quantity)] } key =
      clients.committed key + if symbol = key then quantity.toNat else 0 := by
  rw [committed, grantedQuantity, groupSum_append, groupSum_singleton,
    ← Nat.add_assoc]
  rfl

/-- Acting on a check moves its quantity from the granted to the held. -/
theorem committed_updatePosition {clients next : Clients} {trade : Trade}
    {contents : Uninitialized}
    (stepped : clients.updatePosition trade contents = some next)
    (key : String) : next.committed key = clients.committed key := by
  obtain ⟨granted, rfl⟩ := updatePosition_eq_some.mp stepped
  have moved : clients.grantedQuantity key =
      (if trade.symbol = key then trade.quantity.toNat else 0) +
        groupSum Prod.fst (fun grant : String × UInt64 => grant.2.toNat)
          (clients.granted.erase (trade.symbol, trade.quantity)) key :=
    groupSum_erase granted key
  rw [committed, committed, tradedQuantity_append, moved]
  exact Nat.add_assoc ..

theorem Granting.canOpenPosition {clients : Clients}
    (granting : clients.Granting) {symbol : String} {quantity : UInt64}
    (fit : clients.GrantsFit (.canOpenPosition symbol quantity)) :
    (clients.canOpenPosition symbol quantity).Granting := by
  unfold Clients.canOpenPosition
  split
  next granted =>
      refine ⟨granting.books, fun key involved => ?_⟩
      rw [committed_grant]
      rcases eq_or_ne symbol key with rfl | differ
      · rw [if_pos rfl]
        exact fit granted
      · rw [if_neg differ]
        refine granting.fits key (involved.imp_right fun listed => ?_)
        obtain ⟨grant, member, own⟩ := listed
        rcases List.mem_append.mp member with member | last
        · exact ⟨grant, member, own⟩
        · rw [List.mem_singleton.mp last] at own
          exact absurd own differ
  next => exact granting

theorem Granting.updatePosition {clients next : Clients}
    (granting : clients.Granting) {trade : Trade} {contents : Uninitialized}
    (stepped : clients.updatePosition trade contents = some next) :
    next.Granting := by
  have same := committed_updatePosition stepped
  obtain ⟨granted, rfl⟩ := updatePosition_eq_some.mp stepped
  refine ⟨granting.books.updatePosition trade contents, fun key involved => ?_⟩
  rw [same key, RiskManager.updatePosition_limits]
  apply granting.fits key
  rcases involved with ⟨other, member, own⟩ | ⟨grant, member, own⟩
  · rcases List.mem_append.mp member with member | last
    · exact .inl ⟨other, member, own⟩
    · rw [List.mem_singleton.mp last] at own
      exact .inr ⟨_, granted, own⟩
  · exact .inr ⟨grant, List.mem_of_mem_erase member, own⟩

theorem Granting.step {clients next : Clients} {action : ClientAction}
    (granting : clients.Granting) (fit : clients.GrantsFit action)
    (stepped : clients.step action = some next) : next.Granting := by
  cases action with
  | canOpenPosition symbol quantity =>
      cases stepped
      exact granting.canOpenPosition fit
  | updatePosition trade contents => exact granting.updatePosition stepped

theorem bookings_fit (trades : List (Trade × Uninitialized)) :
    ∀ action ∈ bookings trades, ∀ clients : Clients, clients.GrantsFit action := by
  intro action member clients
  obtain ⟨entry, _, rfl⟩ := List.mem_map.mp member
  trivial

theorem Granting.staysWithin {clients : Clients}
    (granting : clients.Granting) (limits : RiskLimits) :
    clients.StaysWithin limits := fun trades =>
  Machine.throughout_of_preserves Granting granting
    (Machine.along_of_forall (bookings_fit trades) clients)
    (fun _ granting => granting.within)
    fun _ _ _ granting fit stepped => granting.step fit stepped

def settlement (grant : String × UInt64) : Trade :=
  tradeOf grant.1 .buy grant.2 0

/-- A trade for each granted check. -/
def settlements (granted : List (String × UInt64)) :
    List (Trade × Uninitialized) :=
  granted.map fun grant => (settlement grant, RiskManager.untouched)

theorem exists_settlement {clients : Clients} {grant : String × UInt64}
    {rest : List (String × UInt64)}
    (outstanding : clients.granted = grant :: rest) :
    ∃ next,
      clients.updatePosition (settlement grant) RiskManager.untouched =
          some next ∧
        next.granted = rest ∧
        next.booked = clients.booked ++ [settlement grant] ∧
        next.manager.limits = clients.manager.limits := by
  have listed : grant ∈ clients.granted := by
    rw [outstanding]
    exact List.mem_cons_self
  refine ⟨_, updatePosition_eq_some.mpr ⟨listed, rfl⟩, ?_, rfl,
    RiskManager.updatePosition_limits ..⟩
  rw [outstanding]
  exact List.erase_cons_head grant rest

/-- Acting on all granted checks makes what was committed held. -/
theorem exists_settled (limits : RiskLimits)
    {granted : List (String × UInt64)} {clients : Clients}
    (outstanding : clients.granted = granted) :
    ∃ final,
      (machine limits).run clients (bookings (settlements granted)) =
          some final ∧
        final.manager.limits = clients.manager.limits ∧
        (∀ key, tradedQuantity final.booked key = clients.committed key) ∧
        clients.booked ⊆ final.booked ∧
        ∀ grant ∈ granted, settlement grant ∈ final.booked := by
  induction granted generalizing clients with
  | nil =>
      refine ⟨clients, rfl, rfl, fun key => ?_, List.Subset.refl _, by simp⟩
      rw [committed, grantedQuantity, outstanding, groupSum_nil, Nat.add_zero]
  | cons grant rest induction =>
      obtain ⟨next, stepped, remaining, booked, sameLimits⟩ :=
        exists_settlement outstanding
      obtain ⟨final, ran, limits, held, kept, settled⟩ := induction remaining
      rw [booked, List.append_subset] at kept
      refine ⟨final, Machine.run_cons_eq_some.mpr ⟨next, stepped, ran⟩,
        limits.trans sameLimits, fun key => ?_, kept.1, ?_⟩
      · rw [held, committed_updatePosition stepped]
      · intro other member
        rcases List.mem_cons.mp member with rfl | member
        · exact kept.2 List.mem_cons_self
        · exact settled other member

def KeepsBooks (clients : Clients) : Prop :=
  clients.manager.KeepsBooks clients.booked

theorem KeepsBooks.step {clients next : Clients} {action : ClientAction}
    (books : clients.KeepsBooks) (stepped : clients.step action = some next) :
    next.KeepsBooks := by
  cases action with
  | canOpenPosition symbol quantity =>
      cases stepped
      unfold canOpenPosition
      split
      next => exact books
      next => exact books
  | updatePosition trade contents =>
      obtain ⟨_, rfl⟩ := updatePosition_eq_some.mp stepped
      exact RiskManager.KeepsBooks.updatePosition books trade contents

theorem grantsFit_of_staysWithin {limits : RiskLimits} {clients : Clients}
    {action : ClientAction}
    (safe : ∀ next, clients.step action = some next →
      next.StaysWithin limits ∧ next.KeepsBooks) :
    clients.GrantsFit action := by
  cases action with
  | updatePosition trade contents => trivial
  | canOpenPosition symbol quantity =>
      intro granted
      obtain ⟨within, books⟩ := safe _ rfl
      rw [canOpenPosition, if_pos granted] at within books
      have outstanding : Clients.granted { clients with
          granted := clients.granted ++ [(symbol, quantity)] } =
          clients.granted ++ [(symbol, quantity)] := rfl
      obtain ⟨final, ran, sameLimits, held, _, settled⟩ :=
        exists_settled limits outstanding
      have booked := settled (symbol, quantity) (by simp)
      have finalBooks : final.KeepsBooks :=
        Machine.run_preserves KeepsBooks books (Machine.along_trivial _ _) ran
          fun _ _ _ books _ stepped => books.step stepped
      obtain ⟨position, stored⟩ := finalBooks.held_of_mem booked
      have bounded := (within _).final ran symbol position stored
      rw [held, committed_grant, if_pos rfl, sameLimits] at bounded
      exact bounded

/-- In a run, every state keeps the limit and goes on keeping it as the granted
checks are acted on exactly if every granted check fits. -/
theorem limit_survives_iff (limits : RiskLimits)
    (actions : List ClientAction) :
    (machine limits).Throughout (StaysWithin limits) (init limits) actions ↔
      (machine limits).Along GrantsFit (init limits) actions := by
  constructor
  · intro throughout
    have books : (machine limits).Throughout KeepsBooks (init limits) actions :=
      Machine.throughout_of_preserves KeepsBooks RiskManager.keepsBooks_init
        (Machine.along_trivial _ _) (fun _ books => books)
        fun _ _ _ books _ stepped => books.step stepped
    exact (throughout.and books).along fun _ _ => grantsFit_of_staysWithin
  · intro along
    exact Machine.throughout_of_preserves Granting (granting_init limits) along
      (fun _ granting => granting.staysWithin limits)
      fun _ _ _ granting fit stepped => granting.step fit stepped

/-- Two clients check 6000 each before either acts. -/
def bothCheckThenAct : List ClientAction :=
  [.canOpenPosition "AAPL" 6000, .canOpenPosition "AAPL" 6000] ++
    bookings
      [(tradeOf "AAPL" .buy 6000 90, RiskManager.untouched),
        (tradeOf "AAPL" .buy 6000 90, RiskManager.untouched)]

theorem two_clients_exceed_limit :
    ¬ (machine RiskManager.init.limits).Throughout PositionsWithin
      (init RiskManager.init.limits) bothCheckThenAct := by
  intro throughout
  have bounded := throughout.final rfl "AAPL" _ rfl
  revert bounded
  decide +kernel

end Clients

end TradingBot
