/-
  File:      BharatTicker/MarketData/Ticks.lean
  Subject:   WHAT THE SERVICE RETURNS (`engine/market_data.py`: `get_quote_through`, over the parsers of
             all providers). The cascade takes any tick for granted; what it can be is up to the
             provider that made it.

  `str.upper` is a parameter, under which a canonical symbol stays as it is.

  * `TickArgs.tick` -- the figures of a tick that the consumers read;
  * `ParsedFrom` -- the ticks that a provider makes of what it is answered;
  * `TickOf`, `parsedFrom_tickOf` -- each provider;
  * `ServedTick`, `quote_through_ticks` -- the cascade over them.
-/
import BharatTicker.Failover.Cascade
import BharatTicker.MarketData
import BharatTicker.YahooFinance

namespace BharatTicker

open Basis

/-! ## 1. What a provider makes of an answer -/

/-- A price of a tick, which is a finite number. -/
def priceValue : DecimalValue → ℚ
  | .finite q => q
  | _ => 0

/-- The figures that the consumers read. -/
def TickArgs.tick (a : TickArgs) : TickData where
  symbol := a.symbol
  exchange := a.exchange
  ltp := priceValue a.ltp
  volume := a.volume.toNat
  source := a.source

/-- **The ticks of a provider** for a symbol: what its parser makes of some payload. -/
inductive ParsedFrom (upper : String → String) (symbol : String) : Provider → TickArgs → Prop
  | groww {d : List (String × PyJson)} {t : FeedQuote} (h : growwParse upper d (upper symbol) = .ok t) :
    ParsedFrom upper symbol growwProvider t.args.toTickArgs
  | nseLive {d : List (String × PyJson)} {t : FeedQuote} (h : nseLiveParse upper .NSE d symbol = .ok t) :
    ParsedFrom upper symbol nseLiveProvider t.args.toTickArgs
  | bseLive {d : List (String × PyJson)} {t : FeedQuote} (h : nseLiveParse upper .BSE d symbol = .ok t) :
    ParsedFrom upper symbol bseLiveProvider t.args.toTickArgs
  | nseScraper {data : PyJson} {t : PageQuote} (h : parseNseQuote upper data symbol = .ok t) :
    ParsedFrom upper symbol nseScraper t.quote.args.toTickArgs
  | bseScraper {data : PyJson} {t : ScrapedTick} (h : bseScraperParse upper data symbol = .ok t) :
    ParsedFrom upper symbol bseScraper t.args.toTickArgs
  | nseArchive {rows : BhavRows} {t : ValidTick} (h : nseFetchQuote upper rows symbol = .ok t) :
    ParsedFrom upper symbol nseArchiveProvider t.args
  | bseArchive {rows : BhavRows} {t : ValidTick} (h : bseFetchQuote upper rows symbol = .ok t) :
    ParsedFrom upper symbol bseArchiveProvider t.args
  | yahoo {info fastInfo : List (String × PyJson)} {t : FeedQuote}
    (h : yahooFetchQuote upper info fastInfo symbol = some t) :
    ParsedFrom upper symbol yahooFinanceProvider t.args.toTickArgs

/-! ## 2. Each provider -/

/-- The providers whose ticks may have a price of zero. -/
def unpriced : List Provider := [nseScraper, nseArchiveProvider, bseArchiveProvider, yahooFinanceProvider]

/-- A tick of a provider for a symbol. -/
structure TickOf (p : Provider) (symbol : String) (a : TickArgs) : Prop where
  symbol : a.symbol = symbol
  source : a.source = p.name
  venue : p.exchange.str = a.exchange.str ∨ p.exchange = .BOTH ∧ a.exchange = .NSE
  ltp : NonNeg a.ltp
  priced : p ∉ unpriced → Priced a.ltp
  volume : 0 ≤ a.volume

section Providers

variable {upper : String → String} {symbol : String} {rows : BhavRows} {data : PyJson} {t : ValidTick}
  {q : ScrapedTick} {p : Provider} {a : TickArgs}

/-- A tick of a live feed. -/
theorem feedTick_tickOf {exchange : Exchange} {source : String} {f : FeedQuote}
    (h : FeedTick symbol exchange source f) (hsource : source = p.name)
    (hvenue : p.exchange.str = exchange.str) : TickOf p symbol f.args.toTickArgs where
  symbol := h.symbol
  source := h.source.trans hsource
  venue := .inl (hvenue.trans (congrArg Exchange.str h.exchange.symm))
  ltp := (feedErrors_eq_nil_iff.1 f.valid).tick.ltp
  priced _ := h.prices _ List.mem_cons_self
  volume := h.volume

theorem nseFetchQuote_tickOf (h : nseFetchQuote upper rows symbol = .ok t) :
    TickOf nseArchiveProvider (normalizeSymbol upper (upper symbol)) t.args := by
  have hvalid := errors_eq_nil_iff.1 t.valid
  unfold nseFetchQuote at h
  cases hrow : rowFor upper rows symbol with
  | none =>
    rw [hrow] at h
    cases h
  | some row =>
    rw [hrow] at h
    simp only [nseParse, bind_eq_ok] at h
    obtain ⟨vol, -, value, -, change, -, pct, -, ltp, -, openP, -, high, -, low, -, vwap, -, h⟩ := h
    have hargs := tickData_args h
    exact ⟨congrArg (·.symbol) hargs, congrArg (·.source) hargs,
      .inl (congrArg (·.exchange.str) hargs).symm, hvalid.ltp, fun hp => absurd (by decide) hp,
      hvalid.volume⟩

theorem bseFetchQuote_tickOf (h : bseFetchQuote upper rows symbol = .ok t) :
    TickOf bseArchiveProvider (normalizeSymbol upper (upper symbol)) t.args := by
  have hvalid := errors_eq_nil_iff.1 t.valid
  unfold bseFetchQuote at h
  cases hrow : rowFor upper rows symbol with
  | none =>
    rw [hrow] at h
    cases h
  | some row =>
    rw [hrow] at h
    simp only [bseParse, bind_eq_ok] at h
    obtain ⟨vol, -, ltp, -, change, -, pct, -, openP, -, high, -, low, -, h⟩ := h
    have hargs := tickData_args h
    exact ⟨congrArg (·.symbol) hargs, congrArg (·.source) hargs,
      .inl (congrArg (·.exchange.str) hargs).symm, hvalid.ltp, fun hp => absurd (by decide) hp,
      hvalid.volume⟩

/-- The price of the BSE scraper is positive: the last one, or else the previous close. -/
theorem bseLtp_priced {f : BseFields} {ltp : DecimalValue} (hempty : noPrice f = .ok false)
    (h : ifPos f.ltp f.prevClose = .ok ltp) (hltp : NonNeg ltp) : Priced ltp := by
  rcases ifPos_cases h with ⟨hpos, rfl⟩ | ⟨hpos, rfl⟩
  · obtain ⟨v, hv, -⟩ := hltp
    rw [hv] at hpos
    exact ⟨v, hv, of_decide_eq_true (isPos_finite_iff.1 hpos)⟩
  · obtain ⟨v, hv, -⟩ := hltp
    obtain ⟨pos, hp, hempty⟩ := bind_eq_ok.1 hempty
    rw [hpos] at hp
    cases hp
    obtain ⟨prevPos, hprev, hempty⟩ := bind_eq_ok.1 hempty
    cases prevPos with
    | true =>
      rw [hv] at hprev
      exact ⟨v, hv, of_decide_eq_true (isPos_finite_iff.1 hprev)⟩
    | false => cases hempty

theorem bseScraperParse_tickOf (h : bseScraperParse upper data symbol = .ok q) :
    TickOf bseScraper (normalizeSymbol upper symbol) q.args.toTickArgs := by
  have hvalid : q.args.toTickArgs.Valid := by
    have herrors := q.valid
    simp only [ScrapedTickArgs.allErrors, List.append_eq_nil_iff] at herrors
    exact errors_eq_nil_iff.1 herrors.1.1
  unfold bseScraperParse at h
  rw [mapError_eq_ok] at h
  obtain ⟨f, -, h⟩ := bind_eq_ok.1 h
  obtain ⟨empty, hempty, h⟩ := bind_eq_ok.1 h
  rw [mapError_eq_ok, signal_eq_ok] at hempty
  cases empty with
  | true => cases h
  | false =>
    simp only [Bool.false_eq_true, if_false, bind_eq_ok, mapError_eq_ok] at h
    obtain ⟨args, hargs, isin, -, h⟩ := h
    have hq := scrapedTickData_args h
    simp only [bseArgs, bind_eq_ok] at hargs
    obtain ⟨change, -, pct, -, ltp, hltp, openP, -, high, -, low, -, wkHigh, -, wkLow, -, hargs⟩ := hargs
    cases hargs
    have hprice : q.args.ltp = ltp := congrArg (·.ltp) hq
    exact ⟨congrArg (·.symbol) hq, congrArg (·.source) hq, .inl (congrArg (·.exchange.str) hq).symm,
      hvalid.ltp, fun _ => hprice ▸ bseLtp_priced hempty hltp (hprice ▸ hvalid.ltp), hvalid.volume⟩

/-- The NSE page, of which a payload without a price is a quote. -/
theorem parseNseQuote_tickOf {quote : PageQuote} (h : parseNseQuote upper data symbol = .ok quote) :
    TickOf nseScraper (normalizeSymbol upper symbol) quote.quote.args.toTickArgs := by
  have hvalid := (feedErrors_eq_nil_iff.1 quote.quote.valid).tick
  obtain ⟨page, -, htick⟩ := bind_eq_ok.1 h
  have hpage := tick_pageTick htick
  exact ⟨hpage.symbol, hpage.source, .inl (congrArg Exchange.str hpage.exchange).symm, hvalid.ltp,
    fun hp => absurd (by decide) hp, hvalid.volume⟩

theorem yahooFetchQuote_tickOf {info fastInfo : List (String × PyJson)} {f : FeedQuote}
    (h : yahooFetchQuote upper info fastInfo symbol = some f) :
    TickOf yahooFinanceProvider (normalizeSymbol upper symbol) f.args.toTickArgs := by
  have hvalid := (feedErrors_eq_nil_iff.1 f.valid).tick
  have hyahoo := parseYahooData_tick (toOption_eq_some.1 h)
  exact ⟨hyahoo.symbol, hyahoo.source, .inr ⟨rfl, hyahoo.exchange⟩, hvalid.ltp,
    fun hp => absurd (by decide) hp, hvalid.volume⟩

/-- **Every provider**, for a symbol in upper case. -/
theorem parsedFrom_tickOf (hupper : upper symbol = symbol) (h : ParsedFrom upper symbol p a) :
    TickOf p (normalizeSymbol upper symbol) a := by
  cases h with
  | groww h =>
    rw [hupper] at h
    exact feedTick_tickOf (growwParse_feedTick h) rfl rfl
  | nseLive h =>
    have htick := nseLiveParse_feedTick h
    rw [hupper] at htick
    exact feedTick_tickOf htick rfl rfl
  | bseLive h =>
    have htick := nseLiveParse_feedTick h
    rw [hupper] at htick
    exact feedTick_tickOf htick rfl rfl
  | nseScraper h => exact parseNseQuote_tickOf h
  | bseScraper h => exact bseScraperParse_tickOf h
  | nseArchive h =>
    have htick := nseFetchQuote_tickOf h
    rwa [hupper] at htick
  | bseArchive h =>
    have htick := bseFetchQuote_tickOf h
    rwa [hupper] at htick
  | yahoo h => exact yahooFetchQuote_tickOf h

end Providers

/-! ## 3. The cascade -/

/-- Whatever a provider returns, its parser has made of some payload. -/
def AllParsed (upper : String → String) (symbol : String) (env : String → Attempt)
    (providers : List Provider) : Prop :=
  ∀ p ∈ providers, ∀ t, (env p.name).fetch = .tick t →
    ∃ a, ParsedFrom upper symbol p a ∧ t = a.tick

/-- **A tick that is served** for a symbol, and the provider that it comes from. -/
structure ServedTick (symbol : String) (p : Provider) (t : TickData) : Prop where
  symbol : t.symbol = symbol
  source : t.source = p.name
  venue : p.exchange.str = t.exchange.str ∨ p.exchange = .BOTH ∧ t.exchange = .NSE
  ltp : 0 ≤ t.ltp
  priced : p ∉ unpriced → 0 < t.ltp

theorem TickOf.served {p : Provider} {symbol : String} {a : TickArgs} (h : TickOf p symbol a) :
    ServedTick symbol p a.tick where
  symbol := h.symbol
  source := h.source
  venue := h.venue
  ltp := by
    obtain ⟨q, hq, hq0⟩ := h.ltp
    simpa only [TickArgs.tick, hq, priceValue] using hq0
  priced hp := by
    obtain ⟨q, hq, hq0⟩ := h.priced hp
    simpa only [TickArgs.tick, hq, priceValue] using hq0

/-- A provider on the venue that is asked for has ticks of that exchange. -/
theorem ServedTick.exchange_of_pinned {symbol : String} {p : Provider} {t : TickData}
    (h : ServedTick symbol p t) {e : Exchange} (hp : p.exchange.str = e.str) : t.exchange = e := by
  rcases h.venue with hv | ⟨hboth, -⟩
  · rw [hp] at hv
    cases e <;> cases ht : t.exchange <;> rw [ht] at hv <;> first | rfl | exact absurd hv (by decide)
  · rw [hboth] at hp
    cases e <;> exact absurd hp (by decide)

/-- **What `get_quote_through` returns.** Whatever has been done to the controller, whatever providers
    are answered and in whatever order they fail: a tick that is returned is for the symbol asked for,
    has the name of an enabled provider of the service, and its exchange; pinned to an exchange it is
    of that exchange, and where delayed feeds are excluded and no source is named it is not Yahoo's. Its
    price is positive, unless it comes from the NSE page, an archive or Yahoo. -/
theorem quote_through_ticks {upper : String → String} {cfg : BreakerConfig}
    {settings : ProviderSettings} {symbol exchange : String} {source : Option String}
    {excludeDelayed pin : Bool} {env : String → Attempt} {fc : FailoverController} {t : TickData}
    (hproviders : fc.providers = (controller settings).providers)
    (hupper : upper (canonicalSymbol symbol) = canonicalSymbol symbol)
    (hparsed : AllParsed upper (canonicalSymbol symbol) env fc.providers)
    (hr : (getQuoteThrough cfg symbol exchange source excludeDelayed pin env fc).result = .ok t) :
    ∃ p ∈ (controller settings).providers, fc.enabled p.name = true ∧
      ServedTick (normalizeSymbol upper (canonicalSymbol symbol)) p t ∧
      (∀ e : Exchange, pin = true → exchange = e.str → t.exchange = e) ∧
      (excludeDelayed = true → source = none → p ≠ yahooFinanceProvider) := by
  have hnd : (fc.providers.map (·.name)).Nodup := hproviders ▸ controller_distinct settings
  obtain ⟨p, pre, post, hsplit, hans, -⟩ := (cascade_ok hnd).mp hr
  have hp : p ∈ fc.providers := by
    rw [hsplit]
    exact List.mem_append_right pre List.mem_cons_self
  obtain ⟨a, ha, rfl⟩ := hparsed p hp t hans.fetches
  have hserved := (parsedFrom_tickOf hupper ha).served
  refine ⟨p, hproviders ▸ hp, hans.enabled, hserved, fun e hpin he => ?_, fun hlive hsource => ?_⟩
  · refine hserved.exchange_of_pinned ?_
    have hvenue := hans.venue
    rw [hpin, he] at hvenue
    have hname : e.str ≠ "" := by cases e <;> decide
    simpa [offVenue, throughRequest, hname] using hvenue
  · rintro rfl
    have hbarred := hans.live
    rw [hlive, hsource] at hbarred
    simp [barredDelayed, throughRequest, QuoteRequest.forced?, yahooFinanceProvider] at hbarred

/-- A quote of Moneycontrol. -/
def tmpvPayload : List (String × PyJson) :=
  [("pricecurrent", .str "701.50"), ("priceprevclose", .float (.finite 698)), ("VOL", .int 12)]

/-- Groww does not answer, Moneycontrol does. -/
def growwDown (name : String) : Attempt where
  checkedAt := 0
  startedAt := 0
  fetch := if name = "nse_live" then .tick ⟨"TMPV", .NSE, 1403 / 2, 12, "nse_live"⟩
    else .exception "timed out"
  endedAt := 1

theorem growwDown_parsed (providers : List Provider)
    (hnames : ∀ p ∈ providers, p.name = "nse_live" → p = nseLiveProvider) :
    AllParsed upper "TMPV" growwDown providers := by
  intro p hp t ht
  unfold growwDown at ht
  dsimp only at ht
  split at ht
  · rename_i hname
    cases ht
    have hparse : (nseLiveParse upper .NSE tmpvPayload "TMPV").toOption.map (·.args.toTickArgs.tick) =
        some ⟨"TMPV", .NSE, 1403 / 2, 12, "nse_live"⟩ := by decide +kernel
    obtain ⟨q, hq, htick⟩ := Option.map_eq_some_iff.mp hparse
    rw [hnames p hp hname]
    exact ⟨_, .nseLive (toOption_eq_some.1 hq), htick.symm⟩
  · cases ht

/-- Under its old name the stock is the one of its new name. -/
theorem quote_through_ticks_renamed :
    ∃ p ∈ (controller {}).providers, p ≠ yahooFinanceProvider ∧
      ServedTick (normalizeSymbol upper "TMPV") p ⟨"TMPV", .NSE, 1403 / 2, 12, "nse_live"⟩ := by
  have hname : canonicalSymbol "tatamotors" = "TMPV" := by decide +kernel
  have hr : (getQuoteThrough (.ofArgs {}) "tatamotors" "NSE" none true true growwDown
      (controller {})).result = .ok ⟨"TMPV", .NSE, 1403 / 2, 12, "nse_live"⟩ := by decide +kernel
  have hparsed : AllParsed upper (canonicalSymbol "tatamotors") growwDown (controller {}).providers :=
    hname ▸ growwDown_parsed _ (by decide +kernel)
  obtain ⟨p, hp, -, hserved, -, hlive⟩ := quote_through_ticks rfl (by decide +kernel) hparsed hr
  exact ⟨p, hp, hlive rfl rfl, hname ▸ hserved⟩

end BharatTicker
