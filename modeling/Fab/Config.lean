import Fab.Rows
/-!
# Configuration

The configuration entries the services read, under their own keys, and the
defaults they fall back to.
-/

open Fab.Lib

namespace Fab

structure Config where
  fabWaveappsDefaultAccount : Option String := none
  operationsWaveappsDefaultAccount : Option String := none
  waveappsDefaultAccount : Option String := none
  fabMijngeldzakenDefaultAccount : Option String := none
  operationsMijngeldzakenDefaultAccount : Option String := none
  mijngeldzakenDefaultAccount : Option String := none
  mijngeldzakenCategoryMapping : List (String × String) := []
  fabMijngeldzakenCategoryMapping : List (String × String) := []
  waveappsAllowConfirmedActions : Bool := false
  waveappsAllowCredentialActions : Bool := false
  waveappsAutonomousMode : String := "prepare"
  fabAutonomyExecuteApprovedExports : Bool := false
  /-- microseconds -/
  quotaExhaustedRetryDelay : Time := 3600000000
  /-- microseconds -/
  rateLimitRetryDelay : Time := 60000000
  reviewConfidenceThreshold : ℚ := 7 / 10
  vatMaxTotalRatio : ℚ := 1 / 4

namespace Config

/-- `_config_value` over the three keys of the Wave account. -/
def waveDefaultAccount (cfg : Config) : String :=
  (present cfg.fabWaveappsDefaultAccount <|> present cfg.operationsWaveappsDefaultAccount <|>
    present cfg.waveappsDefaultAccount).getD "Uncategorized"

/-- `_config_value` over the three keys of the MijnGeldzaken account. -/
def mijngeldzakenAccount (cfg : Config) : String :=
  (present cfg.fabMijngeldzakenDefaultAccount <|> present cfg.operationsMijngeldzakenDefaultAccount <|>
    present cfg.mijngeldzakenDefaultAccount).getD "Huishouden"

/-- The category mapping: the first of the two that is not empty. -/
def categoryMapping (cfg : Config) : List (String × String) :=
  if cfg.mijngeldzakenCategoryMapping.isEmpty then cfg.fabMijngeldzakenCategoryMapping
  else cfg.mijngeldzakenCategoryMapping

def mijngeldzakenCategory (cfg : Config) (category : Option String) : String :=
  let category := strip (category.getD "")
  (present (cfg.categoryMapping.lookup category) <|> present (some category)).getD "Overig"

theorem mijngeldzakenCategory_ne_empty (cfg : Config) (category : Option String) :
    cfg.mijngeldzakenCategory category ≠ "" :=
  getD_ne_empty (orElse_ne (present_ne _) (present_ne _)) (by decide)

end Config
end Fab
