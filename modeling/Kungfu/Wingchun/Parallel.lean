import Kungfu.Wingchun.Release

/-!
# Two books side by side

Two books of which one has more frozen than the other, and less available for it, stay as far
apart when the same trading data is applied to both: no accounting method looks at what is
available or frozen, apart from the floors under the frozen volumes of a position.
-/

namespace Kungfu.Wingchun

open Longfist TradingData Outcome

/-! ## Volumes -/

namespace Volumes

variable {n : ℤ} {v v' : Volumes} {offset : Offset} {data : TradingData}

/-- The same volumes, but for `n` that are frozen besides. -/
structure Like (n : ℤ) (v v' : Volumes) : Prop where
  nonneg : 0 ≤ n
  volume : v'.volume = v.volume
  yesterdayVolume : v'.yesterdayVolume = v.yesterdayVolume
  frozenTotal : v'.frozenTotal = v.frozenTotal + n
  frozenYesterday : n = 0 → v'.frozenYesterday = v.frozenYesterday

theorem like_zero_iff : Like 0 v v' ↔ v' = v := by
  constructor
  · rintro ⟨-, hvolume, hyesterday, htotal, hfrozen⟩
    rw [add_zero] at htotal
    cases v
    cases v'
    simp_all
  · rintro rfl
    exact ⟨le_rfl, rfl, rfl, (add_zero _).symm, fun _ => rfl⟩

/-- An order that closes and ends gives back at most what is frozen, `n` apart. -/
def Backed (n : ℤ) (offset : Offset) (data : TradingData) (v : Volumes) : Prop :=
  match data with
  | .order o =>
      isFinalStatus o.status → offset ≠ .Open → o.volumeLeft.toInt + n ≤ v.frozenTotal
  | _ => True

instance (n : ℤ) (offset : Offset) (v : Volumes) : ∀ data, Decidable (Backed n offset data v)
  | .orderInput _ => isTrue trivial
  | .order _ => inferInstanceAs (Decidable (_ → _ → _))
  | .trade _ => isTrue trivial

/-- Messages that are backed leave the difference. -/
theorem Like.apply (h : Like n v v') (hbacked : n = 0 ∨ Backed n offset data v') :
    Like n (apply offset data v) (apply offset data v') := by
  rcases eq_or_ne n 0 with rfl | hn
  · rw [like_zero_iff.mp h]
    exact like_zero_iff.mpr rfl
  · obtain ⟨hnonneg, hvolume, hyesterday, htotal, hfrozen⟩ := h
    have hbacked := hbacked.resolve_left hn
    have hsame : Like n v v' := ⟨hnonneg, hvolume, hyesterday, htotal, hfrozen⟩
    cases data with
    | orderInput i =>
        cases offset <;> refine ⟨hnonneg, hvolume, hyesterday, ?_, fun h => absurd h hn⟩ <;>
          simp only [Volumes.apply, freeze, freezeToday, htotal] <;> ring
    | order o =>
        by_cases hfinal : isFinalStatus o.status
        · have hleft := hbacked hfinal
          cases offset with
          | Open => simpa only [Volumes.apply, ite_self] using hsame
          | CloseToday =>
              have hleft := hleft (by simp)
              simp only [Volumes.apply, hfinal, if_true]
              refine ⟨hnonneg, hvolume, hyesterday, ?_, fun h => absurd h hn⟩
              simp only [unfreezeToday]
              split <;> split <;> omega
          | _ =>
              have hleft := hleft (by simp)
              simp only [Volumes.apply, hfinal, if_true]
              refine ⟨hnonneg, hvolume, hyesterday, ?_, fun h => absurd h hn⟩
              simp only [unfreeze]
              omega
        · simpa only [Volumes.apply, hfinal, Bool.false_eq_true, if_false] using hsame
    | trade t =>
        cases offset with
        | Open =>
            refine ⟨hnonneg, ?_, hyesterday, htotal, fun h => absurd h hn⟩
            simp only [Volumes.apply, opened, hvolume]
        | _ =>
            refine ⟨hnonneg, ?_, ?_, ?_, fun h => absurd h hn⟩
            · simp only [Volumes.apply, closed, hvolume]
            · simp only [Volumes.apply, closed, hyesterday]
            · simp only [Volumes.apply, closed, htotal]
              ring

end Volumes

/-! ## Changes of the asset and one position -/

/-- What money depends on of a position. -/
structure Stake where
  volumes : Volumes
  lastPrice : ℚ
  margin : ℚ

namespace Stake

variable {key : PositionKey}

def nothing : Stake := ⟨Volumes.nothing, 0, 0⟩

def ofPosition (p : Position key) : Stake := ⟨Volumes.ofPosition p, p.lastPrice, p.margin⟩

/-- The same stake, but for a volume that is frozen besides. -/
structure Like (n : ℤ) (h h' : Stake) : Prop where
  volumes : h.volumes.Like n h'.volumes
  lastPrice : h'.lastPrice = h.lastPrice
  margin : h'.margin = h.margin

theorem like_zero_iff {h h' : Stake} : Like 0 h h' ↔ h' = h := by
  constructor
  · rintro ⟨hvolumes, hprice, hmargin⟩
    cases h
    cases h'
    simp_all [Volumes.like_zero_iff]
  · rintro rfl
    exact ⟨Volumes.like_zero_iff.mpr rfl, rfl, rfl⟩

@[simp] theorem ofPosition_updatePosition (market : Market) (p : Position key) :
    ofPosition (FutureAccountingMethod.updatePosition market p) = ofPosition p := by
  unfold FutureAccountingMethod.updatePosition
  split <;> rfl

@[simp] theorem lastPrice_updatePosition (market : Market) (p : Position key) :
    (FutureAccountingMethod.updatePosition market p).lastPrice = p.lastPrice := by
  rw [FutureAccountingMethod.updatePosition_eq]

@[simp] theorem ofPosition_updateStockPosition (p : Position key) :
    ofPosition (StockAccountingMethod.updateStockPosition p) = ofPosition p := by
  unfold StockAccountingMethod.updateStockPosition
  split <;> rfl

end Stake

/-- The same money, of which `d` is frozen and not available. -/
structure FundsLike (d : ℚ) (asset asset' : Asset) (margin margin' : AssetMargin) : Prop where
  avail : asset'.avail = asset.avail - d
  frozenCash : asset'.frozenCash = asset.frozenCash + d
  frozenMargin : asset'.frozenMargin = asset.frozenMargin + d
  totalAsset : margin'.totalAsset = margin.totalAsset
  cashDebt : margin'.cashDebt = margin.cashDebt

/-- The same slice, but for money and volume that is frozen besides. -/
structure Slice.Like {key : PositionKey} (d : ℚ) (n : ℤ) (s s' : Slice key) : Prop where
  funds : FundsLike d s.asset s'.asset s.assetMargin s'.assetMargin
  position : (Stake.ofPosition s.position).Like n (Stake.ofPosition s'.position)

/-- A change leaves the difference of two slices. -/
def Keeps {key : PositionKey} (d : ℚ) (n : ℤ) (f : Slice key → Slice key) : Prop :=
  ∀ s s', s.Like d n s' → (f s).Like d n (f s')

section Funds

variable {d x : ℚ} {asset asset' : Asset} {margin margin' : AssetMargin}

theorem FundsLike.freezeMargin (h : FundsLike d asset asset' margin margin') (x : ℚ) :
    FundsLike d (FutureAccountingMethod.freezeMargin x asset)
      (FutureAccountingMethod.freezeMargin x asset') margin margin' := by
  refine ⟨?_, ?_, ?_, h.totalAsset, h.cashDebt⟩
  · simp only [FutureAccountingMethod.freezeMargin, h.avail]
    ring
  · simp only [FutureAccountingMethod.freezeMargin, h.frozenCash]
    ring
  · simp only [FutureAccountingMethod.freezeMargin, h.frozenMargin]
    ring

theorem FundsLike.freezeCash (h : FundsLike d asset asset' margin margin') (x : ℚ) :
    FundsLike d (StockAccountingMethod.freezeCash x asset)
      (StockAccountingMethod.freezeCash x asset') margin margin' := by
  refine ⟨?_, ?_, h.frozenMargin, h.totalAsset, h.cashDebt⟩
  · simp only [StockAccountingMethod.freezeCash, h.avail]
    ring
  · simp only [StockAccountingMethod.freezeCash, h.frozenCash]
    ring

end Funds

section Future

variable {key : PositionKey} {market : Market} {d : ℚ} {n : ℤ} {s s' : Slice key}
  {offset : Offset}

open FutureAccountingMethod

theorem FundsLike.applyOpen (price : ℚ) (trade : Trade Details) (h : s.Like d n s') :
    FundsLike d (applyOpen market price trade s).asset (applyOpen market price trade s').asset
      s.assetMargin s'.assetMargin := by
  obtain ⟨havail, hcash, hfrozen, htotal, hdebt⟩ := h.funds.freezeMargin (-marginFor
    (getInstrumentContractMultiplierAndMarginRatio market
      (hashInstrument trade.exchangeId trade.instrumentId) key.direction) price trade.volume.toInt)
  refine ⟨?_, hcash, hfrozen, htotal, hdebt⟩
  simp only [FutureAccountingMethod.applyOpen, Position.direction, havail]
  ring

theorem FundsLike.applyClose (trade : Trade Details) (h : s.Like d n s') :
    FundsLike d (applyClose market trade s).asset (applyClose market trade s').asset
      s.assetMargin s'.assetMargin := by
  obtain ⟨⟨havail, hcash, hfrozen, htotal, hdebt⟩, ⟨hvolumes, hprice, hmargin⟩⟩ := h
  have hyesterday : s'.position.yesterdayVolume = s.position.yesterdayVolume :=
    hvolumes.yesterdayVolume
  have hmargin : s'.position.margin = s.position.margin := hmargin
  refine ⟨?_, hcash, hfrozen, htotal, hdebt⟩
  simp only [FutureAccountingMethod.applyClose, Position.direction, havail, hmargin, hyesterday]
  ring

/-- Accounting of futures leaves the difference. -/
theorem Slice.Like.effect_future (price : ℚ) {data : TradingData} (h : s.Like d n s')
    (hbacked : n = 0 ∨ Volumes.Backed n offset data (Volumes.ofPosition s'.position)) :
    (effect market price data offset s).Like d n (effect market price data offset s') := by
  have hvolumes : (Volumes.ofPosition (effect market price data offset s).position).Like n
      (Volumes.ofPosition (effect market price data offset s').position) := by
    rw [ofPosition_effect, ofPosition_effect]
    exact h.position.volumes.apply hbacked
  have hprice : s'.position.lastPrice = s.position.lastPrice := h.position.lastPrice
  have hmargin : s'.position.margin = s.position.margin := h.position.margin
  cases data with
  | orderInput i =>
      cases offset with
      | Open =>
          refine ⟨h.funds.freezeMargin _, hvolumes, ?_, ?_⟩ <;>
            simp [effect, applyInput, Stake.ofPosition, hprice, hmargin]
      | _ =>
          refine ⟨h.funds, hvolumes, ?_, ?_⟩ <;>
            simp [effect, applyInput, Stake.ofPosition, Position.freeze, Position.freezeToday,
              hprice, hmargin]
  | order o =>
      by_cases hfinal : isFinalStatus o.status
      · simp only [effect, hfinal, if_true] at hvolumes ⊢
        cases offset with
        | Open =>
            refine ⟨h.funds.freezeMargin _, hvolumes, ?_, ?_⟩ <;>
              simp [applyFinalOrder, Stake.ofPosition, hprice, hmargin]
        | _ =>
            refine ⟨h.funds, hvolumes, ?_, ?_⟩ <;>
              simp [applyFinalOrder, Stake.ofPosition, Position.unfreeze,
                Position.unfreezeToday, hprice, hmargin]
      · simpa only [effect, hfinal, Bool.false_eq_true, if_false] using h
  | trade t =>
      cases offset with
      | Open =>
          refine ⟨.applyOpen price t h, hvolumes, ?_, ?_⟩ <;>
            simp [effect, applyTradeTo, applyOpen, Stake.ofPosition, Position.direction, hprice,
              hmargin]
      | _ =>
          refine ⟨.applyClose t h, hvolumes, ?_, ?_⟩ <;>
            simp [effect, applyTradeTo, applyClose, Stake.ofPosition, Position.direction, hprice,
              hmargin]

end Future

section Stock

variable {key : PositionKey} {market : Market} {d : ℚ} {s s' : Slice key}
  {method : StockAccountingMethod}

open StockAccountingMethod

/-- Nothing that money depends on is changed by the update of a position. -/
def KeepsStake (method : StockAccountingMethod) : Prop :=
  ∀ {key : PositionKey} (p : Position key),
    Stake.ofPosition (method.updatePosition p) = Stake.ofPosition p

theorem keepsStake_stock : KeepsStake stock := Stake.ofPosition_updateStockPosition

theorem keepsStake_repo : KeepsStake RepoAccountingMethod.repo := fun _ => rfl

/-- The positions of two slices of which none has more volume frozen. -/
theorem Slice.Like.position_eq (h : s.Like d 0 s') :
    Stake.ofPosition s'.position = Stake.ofPosition s.position :=
  Stake.like_zero_iff.mp h.position

theorem Slice.Like.of_eq (hfunds : FundsLike d s.asset s'.asset s.assetMargin s'.assetMargin)
    (hposition : Stake.ofPosition s'.position = Stake.ofPosition s.position) : s.Like d 0 s' :=
  ⟨hfunds, Stake.like_zero_iff.mpr hposition⟩

/-- The parts of a stake. -/
theorem Stake.ofPosition_eq_iff {p p' : Position key} :
    Stake.ofPosition p' = Stake.ofPosition p ↔
      p'.volume = p.volume ∧ p'.yesterdayVolume = p.yesterdayVolume ∧
        p'.frozenTotal = p.frozenTotal ∧ p'.frozenYesterday = p.frozenYesterday ∧
        p'.lastPrice = p.lastPrice ∧ p'.margin = p.margin := by
  simp only [Stake.ofPosition, Volumes.ofPosition, Stake.mk.injEq, Volumes.mk.injEq, and_assoc]

theorem Keeps.applyInput_stock (input : OrderInput Details) :
    Keeps d 0 (applyInput market input : Slice key → Slice key) := by
  intro s s' h
  obtain ⟨hvolume, hyesterday, htotal, hfrozen, hprice, hmargin⟩ :=
    Stake.ofPosition_eq_iff.mp h.position_eq
  simp only [applyInput, getInstrConversionMarginRate_eq]
  cases input.side with
  | Buy => exact ⟨h.funds.freezeCash _, h.position⟩
  | Sell | RepayMargin =>
      refine .of_eq h.funds (Stake.ofPosition_eq_iff.mpr ?_)
      simp only [Position.freeze, hvolume, hyesterday, htotal, hfrozen, hprice, hmargin, and_self]
  | RepayStock =>
      refine .of_eq (h.funds.freezeCash _) (Stake.ofPosition_eq_iff.mpr ?_)
      simp only [Position.freeze, hvolume, hyesterday, htotal, hfrozen, hprice, hmargin, and_self]
  | MarginTrade | ShortSell =>
      obtain ⟨havail, hcash, hmargin', hasset, hdebt⟩ := h.funds
      refine ⟨⟨havail, hcash, ?_, hasset, hdebt⟩, h.position⟩
      simp only [hmargin']
      ring
  | _ => exact h

theorem Keeps.applyFinalOrder_stock (price : ℚ) (order : Order Details) :
    Keeps d 0 (applyFinalOrder market price order : Slice key → Slice key) := by
  intro s s' h
  obtain ⟨hvolume, hyesterday, htotal, hfrozen, hprice, hmargin⟩ :=
    Stake.ofPosition_eq_iff.mp h.position_eq
  simp only [applyFinalOrder, getInstrConversionMarginRate_eq]
  cases order.side with
  | Buy => exact ⟨h.funds.freezeCash _, h.position⟩
  | Sell | RepayMargin =>
      refine .of_eq h.funds (Stake.ofPosition_eq_iff.mpr ?_)
      simp only [Position.unfreeze, hvolume, hyesterday, htotal, hfrozen, hprice, hmargin, and_self]
  | RepayStock =>
      refine .of_eq (h.funds.freezeCash _) (Stake.ofPosition_eq_iff.mpr ?_)
      simp only [Position.unfreeze, hvolume, hyesterday, htotal, hfrozen, hprice, hmargin, and_self]
  | MarginTrade | ShortSell =>
      obtain ⟨havail, hcash, hmargin', hasset, hdebt⟩ := h.funds
      refine ⟨⟨havail, hcash, ?_, hasset, hdebt⟩, h.position⟩
      simp only [hmargin']
      ring
  | _ => exact h

/-- The update of a position after a change. -/
theorem Keeps.updatePosition {f : Slice key → Slice key} (hmethod : KeepsStake method)
    (hf : Keeps d 0 f) :
    Keeps d 0 fun s => { f s with position := method.updatePosition (f s).position } := by
  intro s s' h
  have hposition := (hf s s' h).position
  refine ⟨(hf s s' h).funds, ?_⟩
  rwa [← hmethod (f s).position, ← hmethod (f s').position] at hposition

theorem Keeps.applyBuy (price : ℚ) (trade : Trade Details) :
    Keeps d 0 (applyBuy method market price trade : Slice key → Slice key) := by
  intro s s' h
  obtain ⟨hvolume, hyesterday, htotal, hfrozen, hprice, hmargin⟩ :=
    Stake.ofPosition_eq_iff.mp h.position_eq
  obtain ⟨havail, hcash, hmargin', hasset, hdebt⟩ := h.funds
  refine .of_eq ⟨?_, ?_, hmargin', ?_, ?_⟩ (Stake.ofPosition_eq_iff.mpr ?_)
  · simp only [StockAccountingMethod.applyBuy, getInstrConversionMarginRate_eq, havail]
    ring
  · simp only [StockAccountingMethod.applyBuy, getInstrConversionMarginRate_eq, hcash]
    ring
  · simp only [StockAccountingMethod.applyBuy, getInstrConversionMarginRate_eq, hasset, hprice]
    split <;> simp only [calculateCollateralRatio, hasset]
  · simp only [StockAccountingMethod.applyBuy, hasset]
    split <;> exact hdebt
  · simp only [StockAccountingMethod.applyBuy, hvolume, hyesterday, htotal, hfrozen, hprice, hmargin,
      and_self]

theorem Keeps.applySell (hmethod : KeepsStake method) (trade : Trade Details) :
    Keeps d 0 (applySell method market trade : Slice key → Slice key) := by
  intro s s' h
  obtain ⟨hvolume, hyesterday, htotal, hfrozen, hprice, hmargin⟩ :=
    Stake.ofPosition_eq_iff.mp h.position_eq
  obtain ⟨havail, hcash, hmargin', hasset, hdebt⟩ := h.funds
  have hsold : Stake.ofPosition (soldPosition method trade s'.position) =
      Stake.ofPosition (soldPosition method trade s.position) := by
    refine (hmethod _).trans (Eq.trans ?_ (hmethod _).symm)
    apply Stake.ofPosition_eq_iff.mpr
    simp only [closeVolume, Position.unfreeze, hvolume, hyesterday, htotal, hfrozen, hprice, hmargin,
      and_self]
  obtain ⟨hvolume', hyesterday', htotal', hfrozen', hprice', hsoldMargin⟩ :=
    Stake.ofPosition_eq_iff.mp hsold
  refine .of_eq ⟨?_, hcash, hmargin', ?_, ?_⟩ (Stake.ofPosition_eq_iff.mpr ?_)
  · simp only [StockAccountingMethod.applySell, getInstrConversionMarginRate_eq, havail, hsoldMargin]
    ring
  · simp only [StockAccountingMethod.applySell, getInstrConversionMarginRate_eq, hasset, hsoldMargin]
    split <;> simp only [calculateCollateralRatio, hasset]
  · simp only [StockAccountingMethod.applySell, getInstrConversionMarginRate_eq, hasset, hsoldMargin]
    split <;> simp only [calculateCollateralRatio, hdebt]
  · simp only [StockAccountingMethod.applySell, getInstrConversionMarginRate_eq, hasset]
    split <;> simp only [hvolume', hyesterday', htotal', hfrozen', hprice', hsoldMargin, and_self]

theorem Keeps.applyMargintrade (price : ℚ) (trade : Trade Details) :
    Keeps d 0 (applyMargintrade method market price trade : Slice key → Slice key) := by
  intro s s' h
  obtain ⟨hvolume, hyesterday, htotal, hfrozen, hprice, hmargin⟩ :=
    Stake.ofPosition_eq_iff.mp h.position_eq
  obtain ⟨havail, hcash, hmargin', hasset, hdebt⟩ := h.funds
  refine .of_eq ⟨havail, hcash, ?_, ?_, ?_⟩ (Stake.ofPosition_eq_iff.mpr ?_)
  · simp only [StockAccountingMethod.applyMargintrade, getInstrConversionMarginRate_eq, hmargin']
    ring
  · simp only [StockAccountingMethod.applyMargintrade, getInstrConversionMarginRate_eq,
      calculateCollateralRatio, hasset, hprice]
  · simp only [StockAccountingMethod.applyMargintrade, calculateCollateralRatio, hdebt]
  · simp only [StockAccountingMethod.applyMargintrade, hvolume, hyesterday, htotal, hfrozen, hprice,
      hmargin, and_self]

theorem Keeps.applyShortsell (price : ℚ) (trade : Trade Details) :
    Keeps d 0 (applyShortsell method market price trade : Slice key → Slice key) := by
  intro s s' h
  obtain ⟨hvolume, hyesterday, htotal, hfrozen, hprice, hmargin⟩ :=
    Stake.ofPosition_eq_iff.mp h.position_eq
  obtain ⟨havail, hcash, hmargin', hasset, hdebt⟩ := h.funds
  refine .of_eq ⟨havail, hcash, ?_, ?_, hdebt⟩ (Stake.ofPosition_eq_iff.mpr ?_)
  · simp only [StockAccountingMethod.applyShortsell, getInstrConversionMarginRate_eq, hmargin']
    ring
  · simp only [StockAccountingMethod.applyShortsell, getInstrConversionMarginRate_eq,
      calculateCollateralRatio, hasset]
  · simp only [StockAccountingMethod.applyShortsell, getInstrConversionMarginRate_eq, hvolume,
      hyesterday, htotal, hfrozen, and_self]

theorem Keeps.applyRepaymargin (trade : Trade Details) :
    Keeps d 0 (applyRepaymargin method market trade : Slice key → Slice key) := by
  intro s s' h
  obtain ⟨hvolume, hyesterday, htotal, hfrozen, hprice, hmargin⟩ :=
    Stake.ofPosition_eq_iff.mp h.position_eq
  obtain ⟨havail, hcash, hmargin', hasset, hdebt⟩ := h.funds
  refine .of_eq ⟨?_, hcash, hmargin', ?_, ?_⟩ (Stake.ofPosition_eq_iff.mpr ?_)
  · simp only [StockAccountingMethod.applyRepaymargin, getInstrConversionMarginRate_eq, havail,
      hdebt]
    split <;> ring
  · simp only [StockAccountingMethod.applyRepaymargin, getInstrConversionMarginRate_eq,
      calculateCollateralRatio, hdebt, hprice]
    split <;> simp only [hasset]
  · simp only [StockAccountingMethod.applyRepaymargin, getInstrConversionMarginRate_eq,
      calculateCollateralRatio, hdebt]
    split <;> rfl
  · simp only [StockAccountingMethod.applyRepaymargin, getInstrConversionMarginRate_eq, hdebt,
      closeVolume, Position.unfreeze, hvolume, hyesterday, htotal, hfrozen, hprice, hmargin, and_self]

theorem Keeps.applyRepaystock (price : ℚ) (trade : Trade Details) :
    Keeps d 0 (applyRepaystock method market price trade : Slice key → Slice key) := by
  intro s s' h
  obtain ⟨hvolume, hyesterday, htotal, hfrozen, hprice, hmargin⟩ :=
    Stake.ofPosition_eq_iff.mp h.position_eq
  obtain ⟨havail, hcash, hmargin', hasset, hdebt⟩ := h.funds
  refine .of_eq ⟨?_, ?_, hmargin', ?_, hdebt⟩ (Stake.ofPosition_eq_iff.mpr ?_)
  · simp only [StockAccountingMethod.applyRepaystock, getInstrConversionMarginRate_eq, havail]
    ring
  · simp only [StockAccountingMethod.applyRepaystock, getInstrConversionMarginRate_eq, hcash]
    ring
  · simp only [StockAccountingMethod.applyRepaystock, getInstrConversionMarginRate_eq,
      calculateCollateralRatio, hasset]
  · simp only [StockAccountingMethod.applyRepaystock, getInstrConversionMarginRate_eq,
      closeVolume, Position.unfreeze, hvolume, hyesterday, htotal, hfrozen, hprice, hmargin, and_self]

theorem Keeps.applyConvertibleInput (input : OrderInput Details) :
    Keeps d 0 (BondAccountingMethod.applyConvertibleInput market input :
      Slice key → Slice key) := by
  intro s s' h
  obtain ⟨hvolume, hyesterday, htotal, hfrozen, hprice, hmargin⟩ :=
    Stake.ofPosition_eq_iff.mp h.position_eq
  simp only [BondAccountingMethod.applyConvertibleInput, getInstrConversionMarginRate_eq, hvolume,
    htotal]
  cases input.side with
  | Buy => exact ⟨h.funds.freezeCash _, h.position⟩
  | Sell =>
      dsimp only
      split
      · refine .of_eq h.funds (Stake.ofPosition_eq_iff.mpr ?_)
        simp only [hyesterday, hfrozen, hprice, hmargin, and_self]
      · exact h
  | _ => exact h

theorem Keeps.applyInput_repo (input : OrderInput Details) :
    Keeps d 0 (RepoAccountingMethod.applyInput market input : Slice key → Slice key) := by
  intro s s' h
  simp only [RepoAccountingMethod.applyInput, getInstrConversionMarginRate_eq]
  cases input.side with
  | Sell => exact ⟨h.funds.freezeCash _, h.position⟩
  | _ => exact h

theorem Keeps.applyFinalOrder_repo (order : Order Details) :
    Keeps d 0 (RepoAccountingMethod.applyFinalOrder market order : Slice key → Slice key) := by
  intro s s' h
  simp only [RepoAccountingMethod.applyFinalOrder, getInstrConversionMarginRate_eq]
  cases order.side with
  | Sell => exact ⟨h.funds.freezeCash _, h.position⟩
  | _ => exact h

theorem Keeps.applySell_repo (trade : Trade Details) :
    Keeps d 0 (RepoAccountingMethod.applySell market trade : Slice key → Slice key) := by
  intro s s' h
  obtain ⟨hvolume, hyesterday, htotal, hfrozen, hprice, hmargin⟩ :=
    Stake.ofPosition_eq_iff.mp h.position_eq
  obtain ⟨havail, hcash, hmargin', hasset, hdebt⟩ := h.funds
  refine .of_eq ⟨?_, ?_, hmargin', hasset, hdebt⟩ (Stake.ofPosition_eq_iff.mpr ?_)
  · simp only [RepoAccountingMethod.applySell, getInstrConversionMarginRate_eq, havail]
    ring
  · simp only [RepoAccountingMethod.applySell, getInstrConversionMarginRate_eq, hcash]
    ring
  · simp only [RepoAccountingMethod.applySell, hvolume, hyesterday, htotal, hfrozen, hprice, hmargin,
      and_self]

end Stock

/-! ## Books -/

namespace Book

variable {id : UInt64} {d : ℚ} {n : PositionKey → ℤ} {b b' b₁ b₂ : AccountBook} {key : PositionKey}
  {direction : Direction} {exchangeId instrumentId : String} {market : Market} {method : Method}
  {data : TradingData} {updateTime : Int64}

/-- What money depends on of the position under a key. -/
def stake (book : AccountBook) (key : PositionKey) : Stake :=
  match book.state.positions.lookup key with
  | some p => .ofPosition p
  | none => .nothing

theorem volumes_stake (book : AccountBook) (key : PositionKey) :
    (book.stake key).volumes = book.holdings key := by
  unfold stake holdings
  cases book.state.positions.lookup key <;> rfl

theorem stake_of_lookup {p : Position key} (h : b.state.positions.lookup key = some p) :
    b.stake key = .ofPosition p := by
  simp only [stake, h]

theorem ofPosition_position :
    Stake.ofPosition (b.position direction exchangeId instrumentId) =
      b.stake (positionKey direction exchangeId instrumentId) := by
  unfold position stake
  cases b.state.positions.lookup (positionKey direction exchangeId instrumentId) <;> rfl

theorem Gives.stake {p : Position (positionKey direction exchangeId instrumentId)}
    (h : b.Gives direction exchangeId instrumentId p) :
    Stake.ofPosition p = b.stake (positionKey direction exchangeId instrumentId) := by
  rcases h with h | ⟨h, type, -, rfl⟩
  · rw [stake_of_lookup h]
  · simp only [Book.stake, h]
    rfl

theorem stake_setSlice (s : Slice key) :
    (b.setSlice s).stake = Function.update b.stake key (.ofPosition s.position) := by
  ext1 k
  by_cases hk : k = key
  · subst hk
    rw [Function.update_self, stake_of_lookup (lookup_setSlice s)]
  · rw [Function.update_of_ne hk]
    simp only [stake, lookup_setSlice_of_ne s hk]

theorem stake_congr (h : b'.state.positions = b.state.positions) : b'.stake = b.stake := by
  unfold stake
  rw [h]

/-- The same book, but for what is known of one order, and for money and volume that is frozen
besides. -/
structure Parallel (id : UInt64) (d : ℚ) (n : PositionKey → ℤ) (book book' : AccountBook) : Prop where
  funds : FundsLike d book.state.asset book'.state.asset book.state.assetMargin
    book'.state.assetMargin
  stake : ∀ key, (book.stake key).Like (n key) (book'.stake key)
  orders : ∀ orderId, orderId ≠ id → book'.orders orderId = book.orders orderId

/-- Nothing that money depends on is changed, nor the order of another id. -/
abbrev Idle (id : UInt64) (book book' : AccountBook) : Prop := Parallel id 0 0 book book'

theorem Idle.of_eq (hstate : b'.state = b.state)
    (horders : ∀ orderId, orderId ≠ id → b'.orders orderId = b.orders orderId) : Idle id b b' where
  funds := by
    rw [hstate]
    exact ⟨(sub_zero _).symm, (add_zero _).symm, (add_zero _).symm, rfl, rfl⟩
  stake key := by
    rw [stake_congr (congrArg Account.positions hstate)]
    exact Stake.like_zero_iff.mpr rfl
  orders := horders

theorem Idle.refl (id : UInt64) (b : AccountBook) : Idle id b b := .of_eq rfl fun _ _ => rfl

theorem Idle.stake_eq (h : Idle id b b') : b'.stake = b.stake :=
  funext fun key => Stake.like_zero_iff.mp (h.stake key)

theorem Idle.holdings_eq (h : Idle id b b') : b'.holdings = b.holdings := by
  ext1 key
  rw [← volumes_stake, ← volumes_stake, h.stake_eq]

theorem Parallel.trans (h : Parallel id d n b b') (h' : Idle id b' b₁) : Parallel id d n b b₁ := by
  obtain ⟨havail, hcash, hfrozen, hasset, hdebt⟩ := h.funds
  obtain ⟨havail', hcash', hfrozen', hasset', hdebt'⟩ := h'.funds
  refine ⟨⟨?_, ?_, ?_, hasset'.trans hasset, hdebt'.trans hdebt⟩, fun key => ?_, fun orderId ho => ?_⟩
  · rw [havail', havail, sub_zero]
  · rw [hcash', hcash, add_zero]
  · rw [hfrozen', hfrozen, add_zero]
  · rw [h'.stake_eq]
    exact h.stake key
  · rw [h'.orders orderId ho, h.orders orderId ho]

theorem Parallel.left (h : Parallel id d n b b') (h' : Idle id b b₁) : Parallel id d n b₁ b' := by
  obtain ⟨havail, hcash, hfrozen, hasset, hdebt⟩ := h.funds
  obtain ⟨havail', hcash', hfrozen', hasset', hdebt'⟩ := h'.funds
  refine ⟨⟨?_, ?_, ?_, hasset.trans hasset'.symm, hdebt.trans hdebt'.symm⟩, fun key => ?_,
    fun orderId ho => ?_⟩
  · rw [havail', havail, sub_zero]
  · rw [hcash', hcash, add_zero]
  · rw [hfrozen', hfrozen, add_zero]
  · rw [h'.stake_eq]
    exact h.stake key
  · rw [h'.orders orderId ho, h.orders orderId ho]

theorem Idle.symm (h : Idle id b b') : Idle id b' b := by
  obtain ⟨havail, hcash, hfrozen, hasset, hdebt⟩ := h.funds
  rw [sub_zero] at havail
  rw [add_zero] at hcash hfrozen
  refine ⟨⟨?_, ?_, ?_, hasset.symm, hdebt.symm⟩, fun key => ?_, fun orderId ho => ?_⟩
  · rw [havail, sub_zero]
  · rw [hcash, add_zero]
  · rw [hfrozen, add_zero]
  · exact Stake.like_zero_iff.mpr (congrFun h.stake_eq key).symm
  · exact (h.orders orderId ho).symm

theorem Parallel.volume_eq (h : Parallel id d n b b') (key : PositionKey) :
    (b'.holdings key).volume = (b.holdings key).volume := by
  have hvolume := (h.stake key).volumes.volume
  rwa [volumes_stake, volumes_stake] at hvolume

/-- Whether a message opens or closes depends on the volumes that are held. -/
theorem decidedOffset_congr {holdings holdings' : Holdings}
    (h : ∀ key, (holdings' key).volume = (holdings key).volume) :
    decidedOffset holdings' data = decidedOffset holdings data := by
  simp only [decidedOffset, h]

/-! ### Changes of one position -/

/-- A position and the money are changed in both books. -/
theorem Parallel.setSlice_update {d' : ℚ} {m : ℤ} (h : Parallel id d n b b') {s s' : Slice key}
    (hs : s.Like d' m s') :
    Parallel id d' (Function.update n key m) (b.setSlice s) (b'.setSlice s') := by
  refine ⟨hs.funds, fun k => ?_, h.orders⟩
  rw [stake_setSlice, stake_setSlice]
  by_cases hk : k = key
  · subst hk
    simp only [Function.update_self]
    exact hs.position
  · simp only [Function.update_of_ne hk]
    exact h.stake k

theorem Parallel.setSlice (h : Parallel id d n b b') {s s' : Slice key} (hs : s.Like d (n key) s') :
    Parallel id d n (b.setSlice s) (b'.setSlice s') := by
  have hset := h.setSlice_update hs
  rwa [Function.update_eq_self] at hset

theorem Parallel.slice (h : Parallel id d n b b') :
    (b.slice direction exchangeId instrumentId).Like d
      (n (positionKey direction exchangeId instrumentId))
      (b'.slice direction exchangeId instrumentId) := by
  refine ⟨h.funds, ?_⟩
  simp only [Book.slice, ofPosition_position]
  exact h.stake _

theorem Parallel.onSlice (h : Parallel id d n b b')
    {f : Slice (positionKey direction exchangeId instrumentId) →
      Slice (positionKey direction exchangeId instrumentId)}
    (hf : Keeps d (n (positionKey direction exchangeId instrumentId)) f) :
    Parallel id d n (b.onSlice direction exchangeId instrumentId f)
      (b'.onSlice direction exchangeId instrumentId f) :=
  h.setSlice (hf _ _ h.slice)

/-- To put back what was taken changes nothing. -/
theorem idle_setSlice_slice :
    Idle id (b.setSlice (b.slice direction exchangeId instrumentId)) b := by
  have hfunds := (Idle.refl id b).funds
  refine ⟨hfunds, fun key => Stake.like_zero_iff.mpr ?_, fun _ _ => rfl⟩
  have hslice : Stake.ofPosition (b.slice direction exchangeId instrumentId).position =
      b.stake (positionKey direction exchangeId instrumentId) := ofPosition_position
  rw [stake_setSlice, hslice, Function.update_eq_self]

/-- A change that only one of the books gets. -/
theorem Parallel.onSlice_right {d' : ℚ} {m : ℤ} (h : Parallel id d n b b')
    {f : Slice (positionKey direction exchangeId instrumentId) →
      Slice (positionKey direction exchangeId instrumentId)}
    (hf : (b.slice direction exchangeId instrumentId).Like d' m
      (f (b'.slice direction exchangeId instrumentId))) :
    Parallel id d' (Function.update n (positionKey direction exchangeId instrumentId) m) b
      (b'.onSlice direction exchangeId instrumentId f) :=
  (h.setSlice_update hf).left idle_setSlice_slice

theorem Idle.onSlice_right (h : Idle id b b')
    {f : Slice (positionKey direction exchangeId instrumentId) →
      Slice (positionKey direction exchangeId instrumentId)}
    (hf : (b.slice direction exchangeId instrumentId).Like 0 0
      (f (b'.slice direction exchangeId instrumentId))) :
    Idle id b (b'.onSlice direction exchangeId instrumentId f) := by
  have hslice := Parallel.onSlice_right h hf
  have hzero : Function.update (0 : PositionKey → ℤ)
      (positionKey direction exchangeId instrumentId) 0 = 0 :=
    Function.update_eq_iff.mpr ⟨rfl, fun _ _ => rfl⟩
  rwa [hzero] at hslice

theorem Gives.idle {p : Position (positionKey direction exchangeId instrumentId)}
    (h : b.Gives direction exchangeId instrumentId p) : Idle id b (b.setPosition p) := by
  have hfunds := (Idle.refl id b).funds
  refine ⟨hfunds, fun key => Stake.like_zero_iff.mpr ?_, fun _ _ => rfl⟩
  have hset : (b.setPosition p).stake = Function.update b.stake _ (.ofPosition p) :=
    stake_setSlice ⟨b.state.asset, b.state.assetMargin, p⟩
  rw [hset, h.stake, Function.update_eq_self]

variable (id) in
theorem idle_getPosition (h : b.getPosition direction exchangeId instrumentId = .ok b₁) :
    Idle id b b₁ := by
  obtain ⟨p, hp, rfl⟩ := gives_of_getPosition h
  exact hp.idle

theorem Parallel.getPosition (h : Parallel id d n b b') :
    Both (b.getPosition direction exchangeId instrumentId)
      (b'.getPosition direction exchangeId instrumentId)
      fun b₁ b₁' => Parallel id d n b₁ b₁' ∧ b₁'.holdings = b'.holdings := by
  intro b₁ b₁' h₁ h₁'
  have hidle' := idle_getPosition id h₁'
  exact ⟨(h.trans hidle').left (idle_getPosition id h₁), hidle'.holdings_eq⟩

theorem both_orThrow {β : Type} (x : Except Fault β) :
    Both (b.orThrow x) (b'.orThrow x) fun a a' => a' = a ∧ x = .ok a := by
  intro a a' h h'
  rw [orThrow, mapError_eq_ok] at h h'
  exact ⟨Except.ok.inj (h'.symm.trans h), h⟩

/-- A change that is made to the position of a message, which has no more frozen in one book than
in the other. -/
theorem Parallel.onPositionFor {f : ∀ {key : PositionKey}, Slice key → Slice key}
    (h : Parallel id d n b b') (hkey : ∀ key ∈ messageKey data, n key = 0)
    (hf : ∀ {key : PositionKey}, Keeps d 0 (f : Slice key → Slice key)) :
    Both (b.onPositionFor data f) (b'.onPositionFor data f) (Parallel id d n) := by
  refine (both_orThrow _).bind fun _ direction hdirection => ?_
  obtain ⟨rfl, hdirection⟩ := hdirection
  refine h.getPosition.bind fun b₁ b₁' h₁ => both_ok (h₁.1.onSlice ?_)
  rw [hkey (positionKey direction data.exchangeId data.instrumentId)
    (by simp only [messageKey, hdirection, Option.mem_def])]
  exact hf

/-! ### Futures -/

open FutureAccountingMethod

variable (id) in
/-- To decide an offset makes positions at most. -/
theorem idle_getOffset {offset : Offset} (h : getOffset b data = .ok (offset, b₁)) :
    offset = decidedOffset b.holdings data ∧ Idle id b b₁ := by
  refine ⟨(getOffset_eq_ok h).1, ?_⟩
  unfold getOffset at h
  split at h
  · obtain ⟨direction, -, h⟩ := exists_of_bind h
    obtain ⟨b₂, h₂, h⟩ := exists_of_bind h
    obtain ⟨b₃, h₃, h⟩ := exists_of_bind h
    cases h
    exact Parallel.trans (idle_getPosition id h₂) (idle_getPosition id h₃)
  · cases h
    exact Idle.refl id b

variable (id) in
/-- What a message does whose offset is decided first. -/
theorem exists_of_onOffsetPosition {f : Offset → ∀ {key : PositionKey}, Slice key → Slice key}
    (h : onOffsetPosition b data f = .ok b₂) : ∃ direction b₁,
      getDirection data.instrumentType data.side (decidedOffset b.holdings data) = .ok direction ∧
      Idle id b b₁ ∧ b₂ = b₁.onSlice direction data.exchangeId data.instrumentId
        (f (decidedOffset b.holdings data)) := by
  obtain ⟨⟨offset, b₃⟩, hoffset, h⟩ := exists_of_bind h
  obtain ⟨rfl, hidle⟩ := idle_getOffset id hoffset
  obtain ⟨direction, hdirection, h⟩ := exists_of_bind h
  obtain ⟨b₁, hposition, h⟩ := exists_of_bind h
  rw [orThrow, mapError_eq_ok] at hdirection
  cases h
  exact ⟨direction, b₁, hdirection, hidle.trans (idle_getPosition id hposition), rfl⟩

/-- A message whose order ends gives back no more than a position has frozen, `n` apart. -/
def BackedFuture (n : PositionKey → ℤ) (data : TradingData) (book : AccountBook) : Prop :=
  let offset := decidedOffset book.holdings data
  ∀ direction ∈ (getDirection data.instrumentType data.side offset).toOption,
    let key := positionKey direction data.exchangeId data.instrumentId
    n key = 0 ∨ Volumes.Backed (n key) offset data (book.holdings key)

instance (n : PositionKey → ℤ) (data : TradingData) (book : AccountBook) :
    Decidable (BackedFuture n data book) :=
  Option.decidableForallMem (p := fun direction =>
    let key := positionKey direction data.exchangeId data.instrumentId
    n key = 0 ∨ Volumes.Backed (n key) (decidedOffset book.holdings data) data (book.holdings key)) _

theorem backedFuture_congr (h : b'.holdings = b.holdings) :
    BackedFuture n data b' ↔ BackedFuture n data b := by
  simp only [BackedFuture, h]

theorem Parallel.onOffsetPosition (price : ℚ) (h : Parallel id d n b b')
    (hbacked : BackedFuture n data b') :
    Both (onOffsetPosition b data fun offset => effect market price data offset)
      (FutureAccountingMethod.onOffsetPosition b' data fun offset => effect market price data offset)
      (Parallel id d n) := by
  intro b₂ b₂' h₂ h₂'
  obtain ⟨direction, b₁, hdirection, hidle, rfl⟩ := exists_of_onOffsetPosition id h₂
  obtain ⟨direction', b₁', hdirection', hidle', rfl⟩ := exists_of_onOffsetPosition id h₂'
  have hoffset : decidedOffset b'.holdings data = decidedOffset b.holdings data :=
    decidedOffset_congr h.volume_eq
  have hhere := hbacked direction' (by rw [hdirection']; rfl)
  rw [hoffset] at hdirection' hhere ⊢
  cases hdirection.symm.trans hdirection'
  have h₁ : Parallel id d n b₁ b₁' := (h.trans hidle').left hidle
  refine h₁.setSlice (h₁.slice.effect_future price (hhere.imp_right fun hb => ?_))
  have hvolumes : Volumes.ofPosition
      (b₁'.slice direction data.exchangeId data.instrumentId).position = b'.holdings
        (positionKey direction data.exchangeId data.instrumentId) := by
    rw [← volumes_stake, ← hidle'.stake_eq, ← ofPosition_position]
    rfl
  rwa [hvolumes]

/-! ### Accounting methods -/

theorem Parallel.getFrozenPrice (h : Parallel id d n b b') {orderId : UInt64} (hid : orderId ≠ id) :
    b'.getFrozenPrice orderId = b.getFrozenPrice orderId := by
  rw [Book.getFrozenPrice, h.orders orderId hid, Book.getFrozenPrice]

theorem Parallel.emplaceOrder (h : Parallel id d n b b') {order : Order Details}
    (hid : order.orderId ≠ id) : Parallel id d n (b.emplaceOrder order) (b'.emplaceOrder order) := by
  have hhere := h.orders order.orderId hid
  unfold Book.emplaceOrder
  rw [hhere]
  split
  · exact h
  · refine ⟨h.funds, h.stake, fun orderId ho => ?_⟩
    simp only [Function.update_apply, h.orders orderId ho]

/-- An order that the book of the others does not know. -/
theorem idle_emplaceOrder (b : AccountBook) (order : Order Details) :
    Idle order.orderId b (b.emplaceOrder order) :=
  .of_eq (state_emplaceOrder b order) fun _ ho => orders_emplaceOrder_of_ne b ho

theorem Parallel.emplaceTrade (h : Parallel id d n b b') (trade : Trade Details) :
    Parallel id d n (b.emplaceTrade trade) (b'.emplaceTrade trade) := by
  have hidle (book : AccountBook) : Idle id book (book.emplaceTrade trade) :=
    .of_eq (state_emplaceTrade trade) fun _ _ => by rw [orders_emplaceTrade]
  exact (h.trans (hidle b')).left (hidle b)

theorem Parallel.applyOrder_stock (h : Parallel id d n b b') {order : Order Details}
    (hid : order.orderId ≠ id) (hkey : ∀ key ∈ messageKey (.order order), n key = 0) :
    Both (StockAccountingMethod.applyOrder StockAccountingMethod.stock market b order)
      (StockAccountingMethod.applyOrder StockAccountingMethod.stock market b' order)
      (Parallel id d n) := by
  have h := h.emplaceOrder hid
  simp only [StockAccountingMethod.applyOrder, h.getFrozenPrice hid]
  refine both_ite (fun _ => ?_) fun _ => both_ok h
  exact h.onPositionFor hkey (Keeps.updatePosition keepsStake_stock (.applyFinalOrder_stock _ order))

theorem Parallel.applyTrade_stock {accounting : StockAccountingMethod}
    (hkeeps : KeepsStake accounting) (h : Parallel id d n b b') {trade : Trade Details}
    (hid : trade.orderId ≠ id) (hkey : ∀ key ∈ messageKey (.trade trade), n key = 0) :
    Both (StockAccountingMethod.applyTrade accounting market b trade)
      (StockAccountingMethod.applyTrade accounting market b' trade) (Parallel id d n) := by
  simp only [StockAccountingMethod.applyTrade, h.getFrozenPrice hid]
  cases trade.side with
  | Sell => exact h.onPositionFor hkey (.applySell hkeeps trade)
  | Buy => exact h.onPositionFor hkey (.applyBuy _ trade)
  | MarginTrade => exact h.onPositionFor hkey (.applyMargintrade _ trade)
  | ShortSell => exact h.onPositionFor hkey (.applyShortsell _ trade)
  | RepayMargin => exact h.onPositionFor hkey (.applyRepaymargin trade)
  | RepayStock => exact h.onPositionFor hkey (.applyRepaystock _ trade)
  | _ => exact both_ok h

theorem Parallel.addVolume (h : Parallel id d n b b') (volume : ℤ) :
    Parallel id d n (CryptoAccountingMethod.addVolume b exchangeId instrumentId volume)
      (CryptoAccountingMethod.addVolume b' exchangeId instrumentId volume) := by
  refine h.onSlice fun s s' hs => ⟨hs.funds, ?_, hs.position.lastPrice, hs.position.margin⟩
  obtain ⟨hnonneg, hvolume, hyesterday, htotal, hfrozen⟩ := hs.position.volumes
  have hvolume : s'.position.volume = s.position.volume := hvolume
  refine ⟨hnonneg, ?_, hyesterday, htotal, hfrozen⟩
  simp only [Stake.ofPosition, Volumes.ofPosition, hvolume]

theorem Parallel.applyTrade_crypto (h : Parallel id d n b b') (trade : Trade Details) :
    Both (CryptoAccountingMethod.applyTrade market b trade)
      (CryptoAccountingMethod.applyTrade market b' trade) (Parallel id d n) := by
  refine (both_orThrow _).bind fun _ pair hpair => ?_
  obtain ⟨rfl, -⟩ := hpair
  refine h.getPosition.bind fun b₁ b₁' h₁ => ?_
  refine h₁.1.getPosition.bind fun b₂ b₂' h₂ => ?_
  refine h₂.1.getPosition.bind fun b₃ b₃' h₃ => both_ok ?_
  exact ((h₃.1.addVolume _).addVolume _).addVolume _

/-- An order of futures that ends gives back no more than is frozen besides; other instruments do not
touch what is frozen besides. -/
def Backs (n : PositionKey → ℤ) (method : Method) (data : TradingData) (book : AccountBook) : Prop :=
  match method with
  | .future => BackedFuture n data book
  | .crypto => True
  | .stock | .bond | .repo => ∀ key ∈ messageKey data, n key = 0

instance (n : PositionKey → ℤ) (data : TradingData) (book : AccountBook) :
    ∀ method, Decidable (Backs n method data book)
  | .future => inferInstanceAs (Decidable (BackedFuture n data book))
  | .crypto => isTrue trivial
  | .stock | .bond | .repo => Option.decidableForallMem (p := fun key => n key = 0) _

/-- Trading data leaves the difference of two books. -/
theorem Parallel.apply (h : Parallel id d n b b') (hid : data.orderId ≠ id)
    (hbacks : Backs n method data b') :
    Both (method.apply market b data) (method.apply market b' data) (Parallel id d n) := by
  cases method with
  | stock =>
      cases data with
      | orderInput input => exact h.onPositionFor hbacks (.applyInput_stock input)
      | order order => exact h.applyOrder_stock hid hbacks
      | trade trade => exact h.applyTrade_stock keepsStake_stock hid hbacks
  | bond =>
      cases data with
      | orderInput input =>
          refine both_ite (fun _ => h.onPositionFor hbacks (.applyConvertibleInput input))
            fun _ => ?_
          refine (h.onPositionFor (f := fun s => s) hbacks fun _ _ hs => hs).bind fun b₁ b₁' h₁ => ?_
          exact h₁.onPositionFor hbacks (.applyInput_stock input)
      | order order => exact h.applyOrder_stock hid hbacks
      | trade trade => exact h.applyTrade_stock keepsStake_stock hid hbacks
  | future =>
      cases data with
      | orderInput input => exact h.onOffsetPosition 0 hbacks
      | order order =>
          by_cases hfinal : isFinalStatus order.status = true
          · simp only [Method.apply, applyOrder_of_final hfinal 0]
            have hholdings : (b'.emplaceOrder order).holdings = b'.holdings :=
              holdings_congr (by rw [state_emplaceOrder])
            exact (h.emplaceOrder hid).onOffsetPosition 0 ((backedFuture_congr hholdings).mpr hbacks)
          · simp only [Method.apply, FutureAccountingMethod.applyOrder, if_neg hfinal]
            exact both_ok (h.emplaceOrder hid)
      | trade trade =>
          have hid : trade.orderId ≠ id := hid
          have hprice := h.getFrozenPrice hid
          have hholdings : (b'.emplaceTrade trade).holdings = b'.holdings :=
            holdings_congr (by rw [state_emplaceTrade])
          simp only [Method.apply, applyTrade_eq, hprice]
          exact (h.emplaceTrade trade).onOffsetPosition _ ((backedFuture_congr hholdings).mpr hbacks)
  | repo =>
      cases data with
      | orderInput input => exact h.onPositionFor hbacks (.applyInput_repo input)
      | order order =>
          simp only [Method.apply, RepoAccountingMethod.applyOrder]
          refine (h.emplaceOrder hid).onPositionFor hbacks ?_
          intro key s s' hs
          split
          · exact Keeps.applyFinalOrder_repo order s s' hs
          · exact hs
      | trade trade =>
          simp only [Method.apply, RepoAccountingMethod.applyTrade]
          cases trade.side with
          | Sell => exact h.onPositionFor hbacks (.applySell_repo trade)
          | _ => exact h.applyTrade_stock keepsStake_repo hid hbacks
  | crypto =>
      cases data with
      | trade trade => exact h.applyTrade_crypto trade
      | _ => exact both_ok h

/-! ### Updates -/

theorem stake_finish : (b.finish market updateTime direction data).stake = b.stake := by
  rw [stake_congr positions_finish, stamp, onSlice, stake_setSlice]
  calc Function.update b.stake (positionKey direction data.exchangeId data.instrumentId)
        (.ofPosition (b.position direction data.exchangeId data.instrumentId))
      = Function.update b.stake (positionKey direction data.exchangeId data.instrumentId)
          (b.stake _) := by rw [ofPosition_position]
    _ = b.stake := Function.update_eq_self ..

theorem funds_finish (market : Market) (updateTime : Int64) (direction : Direction)
    (data : TradingData) (book : AccountBook) :
    FundsLike 0 book.state.asset (book.finish market updateTime direction data).state.asset
      book.state.assetMargin (book.finish market updateTime direction data).state.assetMargin := by
  obtain ⟨havail, hcash, hmargin⟩ := asset_finish market updateTime direction data book
  refine ⟨?_, ?_, ?_, totalAsset_finish, ?_⟩
  · rw [havail, sub_zero]
  · rw [hcash, add_zero]
  · rw [hmargin, add_zero]
  · cases data <;> rfl

/-- The end of an update changes nothing but the order of the message. -/
theorem idle_finish (h : ∀ order, data = .order order → order.orderId = id) :
    Idle id b (b.finish market updateTime direction data) := by
  refine ⟨funds_finish .., fun key => ?_, fun orderId ho => ?_⟩
  · rw [stake_finish]
    exact Stake.like_zero_iff.mpr rfl
  · rw [orders_finish]
    cases data with
    | order order => exact if_neg fun heq => ho (heq.trans (h order rfl))
    | _ => rfl

theorem Parallel.finish (h : Parallel id d n b b') :
    Parallel id d n (b.finish market updateTime direction data)
      (b'.finish market updateTime direction data) := by
  obtain ⟨havail, hcash, hmargin, hasset, hdebt⟩ := h.funds
  obtain ⟨havail₁, hcash₁, hmargin₁, hasset₁, hdebt₁⟩ :=
    funds_finish market updateTime direction data b
  obtain ⟨havail₂, hcash₂, hmargin₂, hasset₂, hdebt₂⟩ :=
    funds_finish market updateTime direction data b'
  refine ⟨⟨?_, ?_, ?_, ?_, ?_⟩, fun key => ?_, fun orderId ho => ?_⟩
  · rw [havail₁, havail₂, havail, sub_zero, sub_zero]
  · rw [hcash₁, hcash₂, hcash, add_zero, add_zero]
  · rw [hmargin₁, hmargin₂, hmargin, add_zero, add_zero]
  · rw [hasset₁, hasset₂, hasset]
  · rw [hdebt₁, hdebt₂, hdebt]
  · rw [stake_finish, stake_finish]
    exact h.stake key
  · rw [orders_finish, orders_finish]
    cases data with
    | order order => simp only [ordersAfter, h.orders orderId ho]
    | _ => exact h.orders orderId ho

theorem backs_congr (h : b'.holdings = b.holdings) :
    Backs n method data b' ↔ Backs n method data b := by
  cases method with
  | future => exact backedFuture_congr h
  | _ => rfl

/-- Trading data for both books leaves their difference. -/
theorem Parallel.applyAndUpdate (h : Parallel id d n b b') (hid : data.orderId ≠ id)
    (hbacks : Backs n method data b') :
    Both (b.applyAndUpdate market method updateTime data)
      (b'.applyAndUpdate market method updateTime data) (Parallel id d n) := by
  refine (both_orThrow _).bind fun _ direction hdirection => ?_
  obtain ⟨rfl, -⟩ := hdirection
  refine h.getPosition.bind fun b₁ b₁' h₁ => ?_
  exact (h₁.1.apply hid ((backs_congr h₁.2).mpr hbacks)).bind fun b₂ b₂' h₂ => both_ok h₂.finish

variable (id) in
theorem idle_onPositionFor (h : b.onPositionFor data (fun s => s) = .ok b₁) : Idle id b b₁ := by
  obtain ⟨direction, -, h⟩ := exists_of_bind h
  obtain ⟨b₂, hposition, h⟩ := exists_of_bind h
  cases h
  exact (idle_getPosition id hposition).trans
    ((Idle.refl id b₂).onSlice_right (Parallel.slice (Idle.refl id b₂)))

/-- An order that has not ended changes nothing but what is known of it. -/
theorem idle_apply {order : Order Details} (hfinal : ¬ isFinalStatus order.status)
    (h : method.apply market b (.order order) = .ok b₁) : Idle order.orderId b b₁ := by
  have hemplace := idle_emplaceOrder b order
  cases method with
  | stock | bond =>
      simp only [Method.apply, StockAccountingMethod.applyOrder, if_neg hfinal] at h
      cases h
      exact hemplace
  | future =>
      simp only [Method.apply, FutureAccountingMethod.applyOrder, if_neg hfinal] at h
      cases h
      exact hemplace
  | repo =>
      simp only [Method.apply, RepoAccountingMethod.applyOrder, if_neg hfinal] at h
      exact hemplace.trans (idle_onPositionFor _ h)
  | crypto =>
      cases h
      exact Idle.refl _ b

theorem idle_applyAndUpdate {order : Order Details} (hfinal : ¬ isFinalStatus order.status)
    (h : b.applyAndUpdate market method updateTime (.order order) = .ok b₁) :
    Idle order.orderId b b₁ := by
  obtain ⟨direction, -, h⟩ := exists_of_bind h
  obtain ⟨b₂, hposition, h⟩ := exists_of_bind h
  obtain ⟨b₃, happly, h⟩ := exists_of_bind h
  cases h
  refine ((idle_getPosition _ hposition).trans (idle_apply hfinal happly)).trans (idle_finish ?_)
  rintro _ ⟨⟩
  rfl

end Book

end Kungfu.Wingchun
