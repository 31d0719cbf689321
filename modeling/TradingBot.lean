import TradingBot.MarketData.History
import TradingBot.MarketData.Delivery
import TradingBot.MarketData.Guards
import TradingBot.MarketData.Concurrent
import TradingBot.Simulator.Indicators
import TradingBot.Strategy.Agreement
import TradingBot.OrderManager.Store
import TradingBot.OrderManager.Active
import TradingBot.OrderManager.Exceptions
import TradingBot.OrderManager.EventLog
import TradingBot.OrderManager.Concurrent
import TradingBot.ExecutionEngine.Latency
import TradingBot.Clock
import TradingBot.System.Finality
import TradingBot.System.Ledger
import TradingBot.System.Terms
import TradingBot.System.Dispatch
import TradingBot.System.FillPrice
import TradingBot.System.TradeIds
import TradingBot.System.TimePriority
import TradingBot.Risk.NetPosition
import TradingBot.Risk.ProfitAndLoss
import TradingBot.Risk.Close
import TradingBot.Risk.Marking
import TradingBot.Risk.Snapshot
import TradingBot.Risk.Uninitialized
import TradingBot.Risk.PositionLimit
import TradingBot.Risk.LimitCheck
import TradingBot.Risk.WinRate
import TradingBot.Listener.Interference
import TradingBot.Bot.Exposure
import TradingBot.Threads.Shutdown
import TradingBot.Threads.WakeUp
import TradingBot.Threads.Dispatch
import TradingBot.Threads.Stopping
import TradingBot.Threads.Backlog
import TradingBot.Locks.Callbacks
import TradingBot.Races
import TradingBot.Application.Report
import TradingBot.Application.Termination
import TradingBot.Application.MarketThread
import TradingBot.Application.Schedules
import TradingBot.Application.Statements
