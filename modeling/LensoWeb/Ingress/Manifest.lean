import LensoWeb.Foundation.Text

/-!
# Route manifests

The payload-free routing identity that same-port replicas are compared by. A
manifest is sorted when it is built, so equality of manifests does not see the
order in which providers declared their routes.
-/

namespace Ingress

open Foundation

/-- One canonical route entry used to validate same-port Ingress replicas. -/
structure WebIngressRoute where
  method : Bytes
  path : Bytes
  routeId : Bytes
deriving DecidableEq

namespace WebIngressRoute

/-- The derived comparison reads the fields in declaration order. -/
def key (route : WebIngressRoute) : List Nat ×ₗ List Nat ×ₗ List Nat :=
  toLex (Text.codes route.method, toLex (Text.codes route.path, Text.codes route.routeId))

theorem key_injective : Function.Injective key := by
  rintro ⟨method, path, routeId⟩ ⟨method', path', routeId'⟩ same
  simpa [key, Text.codes_injective.eq_iff] using same

instance : LinearOrder WebIngressRoute := LinearOrder.lift' key key_injective

end WebIngressRoute

/-- Canonical routing identity of one prepared Ingress replica. -/
structure WebIngressRouteManifest where
  routes : List WebIngressRoute
  sorted : routes.Pairwise (· ≤ ·)
deriving DecidableEq

namespace WebIngressRouteManifest

/-- `WebIngressRouteManifest::new`. Equal entries are indistinguishable, so the
unstable sort of the source and this stable one give the same list. -/
def new (routes : List WebIngressRoute) : WebIngressRouteManifest where
  routes := routes.mergeSort (· ≤ ·)
  sorted := List.pairwise_mergeSort' (· ≤ ·) routes

/-- `WebIngressRouteManifest::ensure_equivalent`. -/
def ensureEquivalent (manifest replica : WebIngressRouteManifest) : Except String Unit :=
  if manifest = replica then .ok ()
  else .error "same-port Web Ingress replicas have different route manifests"

@[ext] theorem ext_routes {first second : WebIngressRouteManifest}
    (same : first.routes = second.routes) : first = second := by
  cases first
  cases second
  cases same
  rfl

theorem routes_new_perm (routes : List WebIngressRoute) : (new routes).routes.Perm routes :=
  List.mergeSort_perm routes _

/-- A manifest that already exists is its own canonical form. -/
theorem new_routes (manifest : WebIngressRouteManifest) : new manifest.routes = manifest :=
  ext_routes ((routes_new_perm _).eq_of_pairwise' (new manifest.routes).sorted manifest.sorted)

/-- Manifests agree exactly when the declared routes are the same multiset. -/
theorem new_eq_new_iff {first second : List WebIngressRoute} :
    new first = new second ↔ first.Perm second := by
  constructor
  · intro same
    have routes : (new first).routes = (new second).routes := by rw [same]
    exact (routes_new_perm first).symm.trans (routes ▸ routes_new_perm second)
  · intro permuted
    apply ext_routes
    have reordered : (new first).routes.Perm (new second).routes :=
      (routes_new_perm first).trans (permuted.trans (routes_new_perm second).symm)
    exact reordered.eq_of_pairwise' (new first).sorted (new second).sorted

/-- Equivalence does not see the order in which routes were declared. -/
theorem ensureEquivalent_new_iff {first second : List WebIngressRoute} :
    (new first).ensureEquivalent (new second) = .ok () ↔ first.Perm second := by
  rw [← new_eq_new_iff, ensureEquivalent]
  split
  · next same => exact iff_of_true rfl same
  · next different => exact iff_of_false (by simp) different

end WebIngressRouteManifest

end Ingress
