/-
How operations are grouped. Each interface has the operations with its name, in order, and each of
its paths has those below it. Operations are bound path by path and no path comes twice, so that
the requests of an interface, path by path, are its requests in the order of its methods.
-/
import ServiceModel.Interfaces.Basic
import ServiceModel.Proofs.Build.Outcome
import ServiceModel.Proofs.Lists.Grouped

namespace ServiceModel.OpenApi

open Service

/-! ## Interfaces -/

/-- The interface with a name that operations are grouped into. -/
structure Groups (paths : Object) (operations : List BoundOperation) (name : String)
    (i : Interface) : Prop where
  named : i.name.value = name
  methods : i.methods = (withKey (·.interfaceName) operations name).map (·.method)
  http : i.http = requestsOf paths (withKey (·.interfaceName) operations name)

theorem groups_interfaceOf {d : Description} {paths : Object} {operations : List BoundOperation}
    {name : String} {i : Interface}
    (h : interfaceOf d paths name (withKey (·.interfaceName) operations name) = .ok i) :
    Groups paths operations name i := by
  obtain ⟨description, -, h⟩ := read_bind_ok h
  cases h
  exact ⟨rfl, rfl, rfl⟩

/-- There is one interface for each name, in the order in which the names are first used. -/
theorem groupInterfaces_forall₂ {d : Description} {paths : Object}
    {operations : List BoundOperation} {interfaces : List Interface}
    (h : groupInterfaces d paths operations = .ok interfaces) :
    List.Forall₂ (Groups paths operations) (operations.map (·.interfaceName)).eraseDups
      interfaces :=
  (read_mapM_forall₂ h).imp fun _ _ hi => groups_interfaceOf hi

theorem groupInterfaces_names {d : Description} {paths : Object}
    {operations : List BoundOperation} {interfaces : List Interface}
    (h : groupInterfaces d paths operations = .ok interfaces) :
    interfaces.map (·.name.value) = (operations.map (·.interfaceName)).eraseDups := by
  have each := groupInterfaces_forall₂ h
  clear h
  generalize (operations.map (·.interfaceName)).eraseDups = names at each
  induction each with
  | nil => rfl
  | cons hi _ ih => rw [List.map_cons, ih, hi.named]

/-! ## Paths -/

theorem requestsOf_paths (paths : Object) (operations : List BoundOperation) :
    (requestsOf paths operations).map (·.path.value) =
      (operations.map (·.path)).eraseDups := by
  rw [requestsOf, List.map_map]
  exact List.map_id _

/-- The requests of operations that are grouped by path, path by path. -/
theorem requestsOf_methods {paths : Object} {operations : List BoundOperation}
    (h : Grouped (·.path) operations) :
    (requestsOf paths operations).flatMap (·.methods) = operations.map (·.request) := by
  rw [requestsOf, List.flatMap_map]
  conv => rhs; rw [← h]
  rw [List.map_flatMap]
  rfl

/-- Operations that are bound path by path are grouped by path, and so are those of them that
make an interface. -/
theorem grouped_filter {keys : List String} {groups : List (List BoundOperation)}
    (hk : keys.Nodup)
    (h : List.Forall₂ (fun path ys => ∀ y ∈ ys, BoundOperation.path y = path) keys groups)
    (p : BoundOperation → Bool) : Grouped (·.path) (groups.flatten.filter p) := by
  rw [List.filter_flatten]
  refine grouped_flatten hk ?_
  refine List.forall₂_map_right_iff.2 (h.imp fun path ys hy y hm => ?_)
  exact hy y (List.mem_of_mem_filter hm)

end ServiceModel.OpenApi
