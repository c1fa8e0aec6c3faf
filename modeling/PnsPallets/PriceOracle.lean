import PnsPallets.Frame.Dispatch
import PnsPallets.Storage

/-!
# The price oracle (pns-registrar/src/price_oracle.rs)

Fees are a table of eleven prices by label length; the last entry stands for all
longer labels.
-/

namespace PnsPallets.PriceOracle

open Frame

variable {T : Config}

/-- `PriceOracle::registration_fee` (price_oracle.rs:178–185). -/
def registrationFee (priceOracle : PriceOracleStorage) (nameLen : Nat) : Option Balance :=
  if nameLen = 0 then none
  else
    let idx := min (nameLen - 1) 10
    some (priceOracle.basePrice.get ⟨idx, by omega⟩)

/-- `price_oracle::set_exchange_rate` (price_oracle.rs:127–138). -/
def setExchangeRate (s : State T) (origin : Origin) (exchangeRate : Balance) :
    DispatchResult (State T) := do
  let _who ← ensureManager origin
  pure { s with priceOracle.exchangeRate := exchangeRate }

/-- `price_oracle::set_base_price` (price_oracle.rs:142–150). -/
def setBasePrice (s : State T) (origin : Origin) (prices : Vector Balance 11) :
    DispatchResult (State T) := do
  let _who ← ensureManager origin
  pure { s with priceOracle.basePrice := prices }

/-- `price_oracle::set_rent_price` (price_oracle.rs:154–162). -/
def setRentPrice (s : State T) (origin : Origin) (prices : Vector Balance 11) :
    DispatchResult (State T) := do
  let _who ← ensureManager origin
  pure { s with priceOracle.rentPrice := prices }

end PnsPallets.PriceOracle
