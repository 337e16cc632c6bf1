/-
NexCause/Cluster.lean

The Kubernetes API as the deployment manager uses it: objects by kind,
namespace and name, and the calls that read, create, replace, delete and patch
them.

A call that the API refuses changes nothing.  Reading, replacing, deleting or patching
an object that does not exist fails with 404, creating one that exists with
409, replacing one whose resource version has moved on with 409, and creating
from a manifest that still carries a resource version with 500.

Of a manifest, the model keeps what the builders of the source put into it.
-/
import Mathlib.Logic.Function.Basic
import NexCause.JavaScript

namespace NexCause

/-! ### Objects -/

inductive Kind
  | ns | configMap | secret | deployment | service | httpRoute | networkPolicy | job
  deriving DecidableEq, Repr

/-- Where an object is; a namespace is in no namespace. -/
structure ObjectKey where
  kind : Kind
  «namespace» : String
  name : String
  deriving DecidableEq, Repr

/-- An item of a mounted ConfigMap or Secret. -/
structure FileItem where
  key : String
  path : String
  deriving DecidableEq, Repr

inductive EnvFromSource
  | configMapRef (name : String)
  | secretRef (name : String)
  deriving DecidableEq, Repr

inductive VolumeSource
  | configMap (name : String) (items : List FileItem)
  | secret (secretName : String) (items : List FileItem)
  deriving DecidableEq, Repr

structure Volume where
  name : String
  source : VolumeSource
  deriving DecidableEq, Repr

/-- A read-only mount. -/
structure VolumeMount where
  name : String
  mountPath : String
  deriving DecidableEq, Repr

structure DeploymentSpec where
  replicas : ℕ
  matchLabels : Entries
  templateLabels : Entries
  /-- the instant in the annotation `kubectl.kubernetes.io/restartedAt` -/
  restartedAt : Option ℕ
  image : String
  containerPort : ℕ
  envFrom : List EnvFromSource
  volumes : List Volume
  volumeMounts : List VolumeMount
  deriving DecidableEq, Repr

/-- The fields of a Service that the cluster assigns. -/
structure ServiceAddress where
  clusterIP : Option String
  clusterIPs : Option (List String)
  ipFamilies : Option (List String)
  ipFamilyPolicy : Option String
  deriving DecidableEq, Repr

structure ServiceSpec where
  selector : Entries
  port : ℕ
  address : ServiceAddress
  deriving DecidableEq, Repr

inductive RouteRule
  | backend (serviceName : String) (servicePort : ℕ)
  | redirect (scheme : String) (statusCode : ℕ)
  deriving DecidableEq, Repr

structure HTTPRouteSpec where
  gatewayName : String
  gatewayNamespace : String
  sectionName : String
  hostname : String
  rule : RouteRule
  deriving DecidableEq, Repr

structure NetworkPolicyPeer where
  namespaceSelector : Option Entries
  podSelector : Entries
  deriving DecidableEq, Repr

/-- An ingress policy: the pods it selects and, for each rule, the peers. -/
structure NetworkPolicySpec where
  podSelector : Entries
  ingress : List (List NetworkPolicyPeer)
  deriving DecidableEq, Repr

/-- A container of a build Job, with its volumes and where they are mounted. -/
structure JobContainer where
  name : String
  image : String
  privileged : Bool
  command : List String
  args : List String
  volumeMounts : Entries
  deriving DecidableEq, Repr

structure JobSpec where
  backoffLimit : ℕ
  templateLabels : Entries
  restartPolicy : String
  /-- the names of the volumes, which are empty at first -/
  volumes : List String
  initContainers : List JobContainer
  containers : List JobContainer
  deriving DecidableEq, Repr

inductive Manifest
  | ns (labels : Entries)
  | configMap (labels data : Entries)
  | secret (labels stringData : Entries)
  | deployment (labels : Entries) (spec : DeploymentSpec)
  | service (labels : Entries) (spec : ServiceSpec)
  | httpRoute (labels : Entries) (spec : HTTPRouteSpec)
  | networkPolicy (spec : NetworkPolicySpec)
  | job (labels : Entries) (spec : JobSpec)
  deriving DecidableEq, Repr

structure Object where
  resourceVersion : ℕ
  manifest : Manifest
  deriving DecidableEq, Repr

/-- `spec.replicas` of a Deployment. -/
def Object.specReplicas (o : Object) : Option ℕ :=
  match o.manifest with
  | .deployment _ spec => some spec.replicas
  | _ => none

/-! ### Calls -/

/-- A merge patch the service sends. -/
inductive MergePatch
  /-- `{ spec: { replicas } }` -/
  | replicas (n : ℕ)
  /-- `{ spec: { template: { metadata: { annotations: { restartedAt } } } } }` -/
  | restartedAt (instant : ℕ)
  /-- `{ metadata: { labels: … } }` -/
  | label (key value : String)
  deriving DecidableEq, Repr

/-- A call on one object.  A created manifest carries a resource version when
the object it is built from was read before. -/
inductive ClusterOp
  | read (key : ObjectKey)
  | create (key : ObjectKey) (resourceVersion : Option ℕ) (m : Manifest)
  | replace (key : ObjectKey) (resourceVersion : ℕ) (m : Manifest)
  | delete (key : ObjectKey)
  | patch (key : ObjectKey) (p : MergePatch)
  deriving DecidableEq, Repr

/-- The `status` of a Deployment, which its controller keeps. -/
structure DeploymentConditions where
  readyReplicas : ℕ
  availableReplicas : ℕ
  updatedReplicas : ℕ
  unavailableReplicas : ℕ
  conditions : Entries
  deriving DecidableEq, Repr

/-- The body of a read. -/
structure ReadBody where
  object : Object
  status : DeploymentConditions
  deriving DecidableEq, Repr

/-- What a call returns. -/
def ClusterOp.Result : ClusterOp → Type
  | .read _ => ReadBody
  | _ => Unit

/-- What a call throws: an error of the Kubernetes client, of the database
client, or an exception of the service. -/
inductive ApiError
  | kubernetes (statusCode : ℕ) (message : String)
  | database (message : String)
  | badRequest (message : String)
  | unauthorized (message : String)
  | forbidden (message : String)
  | notFound (message : String)
  | serviceUnavailable (message : String)
  | error (message : String)
  deriving DecidableEq, Repr

/-- `isKubernetesNotFound`.  A `NotFoundException` carries a `response` with
status code 404 too. -/
def ApiError.isKubernetesNotFound : ApiError → Bool
  | .kubernetes statusCode _ => statusCode = 404
  | .notFound _ => true
  | _ => false

/-- A failure of the API that is not about the object: anything but a 404. -/
def Fault : Type := { e : ApiError // e.isKubernetesNotFound = false }

/-! ### The cluster -/

/-- The objects, and the last resource version that was given out. -/
structure Cluster where
  objects : ObjectKey → Option Object
  revision : ℕ

/-- Apply a merge patch. -/
def Manifest.patch (m : Manifest) (p : MergePatch) : Manifest :=
  match m, p with
  | .deployment labels spec, .replicas n => .deployment labels { spec with replicas := n }
  | .deployment labels spec, .restartedAt instant =>
      .deployment labels { spec with restartedAt := some instant }
  | .ns labels, .label k v => .ns (Entries.set labels k v)
  | m, _ => m

/-- Store a manifest under a new resource version. -/
def Cluster.put (c : Cluster) (key : ObjectKey) (m : Manifest) : Cluster where
  objects := Function.update c.objects key (some ⟨c.revision + 1, m⟩)
  revision := c.revision + 1

def Cluster.remove (c : Cluster) (key : ObjectKey) : Cluster :=
  { c with objects := Function.update c.objects key none }

/-- Serve a call; `status` is what the controller says at that moment. -/
def Cluster.serve (op : ClusterOp) (status : DeploymentConditions) (c : Cluster) :
    Except ApiError op.Result × Cluster :=
  match op with
  | .read key =>
      match c.objects key with
      | none => (.error (.kubernetes 404 "NotFound"), c)
      | some o => (.ok ⟨o, status⟩, c)
  | .create key resourceVersion m =>
      match resourceVersion, c.objects key with
      | some _, _ =>
          (.error (.kubernetes 500 "resourceVersion should not be set on objects to be created"), c)
      | none, none => (.ok (), c.put key m)
      | none, some _ => (.error (.kubernetes 409 "AlreadyExists"), c)
  | .replace key resourceVersion m =>
      match c.objects key with
      | none => (.error (.kubernetes 404 "NotFound"), c)
      | some o =>
          if o.resourceVersion = resourceVersion then (.ok (), c.put key m)
          else (.error (.kubernetes 409 "Conflict"), c)
  | .delete key =>
      match c.objects key with
      | none => (.error (.kubernetes 404 "NotFound"), c)
      | some _ => (.ok (), c.remove key)
  | .patch key p =>
      match c.objects key with
      | none => (.error (.kubernetes 404 "NotFound"), c)
      | some o => (.ok (), c.put key (o.manifest.patch p))

/-! ### What a call does -/

/-- The object a call is about. -/
def ClusterOp.key : ClusterOp → ObjectKey
  | .read key => key
  | .create key _ _ => key
  | .replace key _ _ => key
  | .delete key => key
  | .patch key _ => key

@[simp] theorem Cluster.put_objects_self (c : Cluster) (key : ObjectKey) (m : Manifest) :
    (c.put key m).objects key = some ⟨c.revision + 1, m⟩ := Function.update_self ..

@[simp] theorem Cluster.put_objects_of_ne (c : Cluster) {key key' : ObjectKey} (m : Manifest)
    (h : key' ≠ key) : (c.put key m).objects key' = c.objects key' := Function.update_of_ne h ..

@[simp] theorem Cluster.remove_objects_self (c : Cluster) (key : ObjectKey) :
    (c.remove key).objects key = none := Function.update_self ..

@[simp] theorem Cluster.remove_objects_of_ne (c : Cluster) {key key' : ObjectKey}
    (h : key' ≠ key) : (c.remove key).objects key' = c.objects key' := Function.update_of_ne h ..

/-- A call leaves the other objects alone. -/
theorem Cluster.serve_objects_of_ne {op : ClusterOp} {status : DeploymentConditions} {c : Cluster}
    {key : ObjectKey} (h : key ≠ op.key) : (c.serve op status).2.objects key = c.objects key := by
  cases op with
  | read key' =>
    simp only [serve]
    split <;> rfl
  | create key' rv m =>
    simp only [serve]
    split
    · rfl
    · exact c.put_objects_of_ne m h
    · rfl
  | replace key' rv m =>
    simp only [serve]
    split
    · rfl
    · split
      · exact c.put_objects_of_ne m h
      · rfl
  | delete key' =>
    simp only [serve]
    split
    · rfl
    · exact c.remove_objects_of_ne h
  | patch key' p =>
    simp only [serve]
    split
    · rfl
    · exact c.put_objects_of_ne _ h

/-- A read changes nothing. -/
theorem Cluster.serve_read (c : Cluster) (key : ObjectKey) (status : DeploymentConditions) :
    (c.serve (.read key) status).2 = c := by
  simp only [serve]
  split <;> rfl

/-- A call on an object that does not exist, other than its creation, fails
with 404 and changes nothing. -/
theorem Cluster.serve_of_missing {op : ClusterOp} {status : DeploymentConditions} {c : Cluster}
    (h : c.objects op.key = none) (hop : ∀ key rv m, op ≠ .create key rv m) :
    c.serve op status = (.error (.kubernetes 404 "NotFound"), c) := by
  cases op with
  | create key rv m => exact absurd rfl (hop key rv m)
  | read key => simp only [ClusterOp.key] at h; simp only [serve, h]
  | replace key rv m => simp only [ClusterOp.key] at h; simp only [serve, h]
  | delete key => simp only [ClusterOp.key] at h; simp only [serve, h]
  | patch key p => simp only [ClusterOp.key] at h; simp only [serve, h]

/-- Which objects exist after a call. -/
theorem Cluster.serve_isSome_iff {op : ClusterOp} {status : DeploymentConditions} {c : Cluster}
    {key : ObjectKey} :
    ((c.serve op status).2.objects key).isSome ↔
      (∃ m, op = .create key none m) ∨ ((c.objects key).isSome ∧ op ≠ .delete key) := by
  by_cases hkey : key = op.key
  · -- the object that the operation is about
    subst hkey
    cases op with
    | create key rv m =>
      simp only [ClusterOp.key, serve]
      split <;> simp_all
    | read key =>
      simp only [ClusterOp.key, serve]
      split <;> simp_all
    | replace key rv m =>
      simp only [ClusterOp.key, serve]
      split
      · simp_all
      · split <;> simp_all
    | delete key =>
      simp only [ClusterOp.key, serve]
      split <;> simp_all
    | patch key p =>
      simp only [ClusterOp.key, serve]
      split <;> simp_all
  · -- any other is left alone
    rw [serve_objects_of_ne hkey]
    constructor
    · exact fun h => .inr ⟨h, fun hop => hkey (by rw [hop]; rfl)⟩
    · rintro (⟨m, rfl⟩ | ⟨h, -⟩)
      · exact absurd rfl hkey
      · exact h

end NexCause
