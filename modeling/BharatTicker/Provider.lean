/-
  File:      BharatTicker/Provider.lean
  Subject:   PROVIDERS AND THE TICKS THEY RETURN (`providers/base.py`, `models/tick.py`).

  A provider is the metadata the failover layer orders and filters by; what it does when it is
  asked (connect, fetch) is the environment's choice (`Attempt`, Failover.lean). Of a tick the
  fields are kept that the modelled consumers read.
-/
import Mathlib

namespace BharatTicker

/-- The exchange of a tick: `Literal["NSE", "BSE"]`. -/
inductive Exchange where
  | NSE
  | BSE
  deriving DecidableEq, Repr

def Exchange.str : Exchange → String
  | .NSE => "NSE"
  | .BSE => "BSE"

/-- The exchange a provider serves: `Literal["NSE", "BSE", "BOTH"]`. -/
inductive Venue where
  | NSE
  | BSE
  | BOTH
  deriving DecidableEq, Repr

def Venue.str : Venue → String
  | .NSE => "NSE"
  | .BSE => "BSE"
  | .BOTH => "BOTH"

/-- `TickData`: identity, price, cumulative volume and provider. -/
structure TickData where
  symbol : String
  exchange : Exchange
  ltp : ℚ
  volume : Nat := 0
  source : String
  deriving DecidableEq, Repr

/-- The class attributes of a `DataProvider`. -/
structure Provider where
  name : String
  tier : Int := 1
  priority : Int := 0
  delayed : Bool := false
  exchange : Venue := .NSE
  deriving DecidableEq, Repr

/-- `ProviderError` (and its subclasses, which the failover layer does not tell apart). -/
structure ProviderError where
  provider : String
  message : String
  deriving DecidableEq, Repr

/-- `str(e)`. -/
def ProviderError.str (e : ProviderError) : String := "[" ++ e.provider ++ "] " ++ e.message

/-- `(priority or tier * 10, name)`, compared as Python compares tuples. -/
def Provider.sortKey (p : Provider) : Int ×ₗ String :=
  toLex (if p.priority = 0 then p.tier * 10 else p.priority, p.name)

/-- `str.lower` on the ASCII names and keywords of the failover layer. -/
def lower (s : String) : List Char := s.toList.map Char.toLower

/-- `_source_match`: a provider against a source keyword or a provider name. -/
def sourceMatch (p : Provider) (source : String) : Bool :=
  let s := lower source
  if s = lower p.name then true
  else if s = "nse".toList ∨ s = "bse".toList then s.isPrefixOf (lower p.name)
  else if s = "yahoo".toList ∨ s = "yfinance".toList then
    decide ("yahoo".toList <:+: lower p.name)
  else false

/-! ## The providers of the market data service -/

def growwProvider : Provider where
  name := "groww"
  priority := 5

def nseLiveProvider : Provider where
  name := "nse_live"
  priority := 10

def nseScraper : Provider where
  name := "nse_scraper"
  priority := 10

def nseArchiveProvider : Provider where
  name := "nse_archive"
  priority := 20

def bseScraper : Provider where
  name := "bse_scraper"
  priority := 11
  exchange := .BSE

def bseLiveProvider : Provider where
  name := "bse_live"
  priority := 13
  exchange := .BSE

def bseArchiveProvider : Provider where
  name := "bse_archive"
  priority := 25
  exchange := .BSE

def yahooFinanceProvider : Provider where
  name := "yahoo_finance"
  tier := 3
  priority := 40
  delayed := true
  exchange := .BOTH

end BharatTicker
