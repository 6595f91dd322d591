import RequestGuard.Service.Accounts

/-!
# The site

The service as it is deployed: accounts, two probes that say whether the service is up and ready,
and the counters where a scraper is to have them.
-/

namespace RequestGuard.Service

/-- A resource that says the same to everyone. -/
def constantText (s : String) : Resource :=
  ⟨.each [("GET", fun _ _ => .text .ok s)], []⟩

/-- The counters. -/
def metrics : Resource :=
  ⟨.each [("GET", fun _ t => .text .ok t.exposition)], []⟩

/-- The site, with or without the counters. -/
def site (bodyLimit : Nat) (exposesMetrics : Bool) : Service where
  bodyLimit := bodyLimit
  resources :=
    [("/health/liveness", constantText "ok"), ("/health/readiness", constantText "ready")] ++
      (if exposesMetrics then [("/metrics", metrics)] else []) ++ [("/v1/accounts", Accounts.resource)]

end RequestGuard.Service
