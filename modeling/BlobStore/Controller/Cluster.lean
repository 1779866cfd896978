import Mathlib

/-! `clusterControllerImpl` of `access/controller/cluster.go`: `load` rebuilds the cluster queue
and its total terabytes, `ChooseOne` draws from it. `x >> 40` is `x / 2^40`. -/

namespace BlobStore.Controller

/-- `cmapi.ClusterInfo`, with the fields `load` and `ChooseOne` read. -/
structure ClusterInfo where
  clusterID : Nat
  capacity : Int
  available : Int
  readonly : Bool
  deriving DecidableEq, Repr

/-- What `load` reads of one consul pair: `json.Unmarshal` of its value, and `strconv.Atoi` of
`filepath.Base` of its key; `none` where that call fails. -/
structure KVPair where
  decoded : Option ClusterInfo
  keyID : Option Int
  deriving DecidableEq, Repr

/-- `AlgChoose`. -/
inductive AlgChoose where
  | minAlg
  | algAvailable
  | algRandom
  | maxAlg
  deriving DecidableEq, Repr

inductive ChooseErr where
  | noAvailableSpace
  | noAvailableCluster
  | notImplemented
  deriving DecidableEq, Repr

/-- The state of `clusterControllerImpl` that `load` writes and `ChooseOne` reads; the
service controllers appear by the ids they are stored under. -/
structure ClusterController where
  clusters : AList (fun _ : Nat => ClusterInfo)
  available : List ClusterInfo
  totalAvailableTB : Int
  serviceMgrs : List Nat
  roundRobinCount : Nat

/-- `Available >> 40`. -/
def tb (c : ClusterInfo) : Int := c.available / 2 ^ 40

/-- Whether `load` queues a cluster: `!Readonly && Available > 0`. -/
def writable (c : ClusterInfo) : Bool := !c.readonly && decide (0 < c.available)

/-- One pass of the first loop of `load`: skip a pair that does not decode or whose key is not its
cluster id; else store the cluster and queue it when writable. -/
def collectPair (acc : AList (fun _ : Nat => ClusterInfo) × List ClusterInfo × Int)
    (pair : KVPair) : AList (fun _ : Nat => ClusterInfo) × List ClusterInfo × Int :=
  match pair.decoded, pair.keyID with
  | some info, some key =>
    if info.clusterID ≠ (key % 2 ^ 32).toNat then acc
    else if writable info then (acc.1.insert info.clusterID info, acc.2.1 ++ [info], acc.2.2 + tb info)
    else (acc.1.insert info.clusterID info, acc.2.1, acc.2.2)
  | _, _ => acc

/-- `removeThisCluster`: drop the cluster from the map and its first entry from the queue. -/
def removeThisCluster (all : AList (fun _ : Nat => ClusterInfo)) (available : List ClusterInfo)
    (newCluster : ClusterInfo) : AList (fun _ : Nat => ClusterInfo) × List ClusterInfo :=
  (all.erase newCluster.clusterID,
    if writable newCluster then available.eraseP (·.clusterID == newCluster.clusterID)
    else available)

/-- One pass of the loop over new clusters; `serviceOk` and `volumeOk` say whether
`NewServiceController` and `NewVolumeGetter` succeed for a cluster id. -/
def initCluster (serviceOk volumeOk : Nat → Bool)
    (acc : AList (fun _ : Nat => ClusterInfo) × List ClusterInfo × List Nat)
    (newCluster : ClusterInfo) : AList (fun _ : Nat => ClusterInfo) × List ClusterInfo × List Nat :=
  if serviceOk newCluster.clusterID && volumeOk newCluster.clusterID then
    (acc.1, acc.2.1, acc.2.2 ++ [newCluster.clusterID])
  else
    let r := removeThisCluster acc.1 acc.2.1 newCluster
    (r.1, r.2, acc.2.2)

/-- `load()` once the pairs are listed. `sortSlice` is the outcome of `sort.Slice` by capacity;
the new clusters are taken in the order of the map's entries. -/
def ClusterController.load (c : ClusterController) (pairs : List KVPair)
    (sortSlice : List ClusterInfo → List ClusterInfo) (serviceOk volumeOk : Nat → Bool) :
    ClusterController :=
  let (all, available, totalAvailableTB) := pairs.foldl collectPair (∅, [], 0)
  let available := sortSlice available
  let newClusters := (all.entries.map (·.2)).filter (fun info => info.clusterID ∉ c.serviceMgrs)
  let (all, available, serviceMgrs) :=
    newClusters.foldl (initCluster serviceOk volumeOk) (all, available, c.serviceMgrs)
  { c with clusters := all, available := available, totalAvailableTB := totalAvailableTB,
           serviceMgrs := serviceMgrs }

/-- The loop of the `AlgAvailable` case of `ChooseOne`. -/
def chooseLoop : List ClusterInfo → Int → Except ChooseErr ClusterInfo
  | [], _ => .error .noAvailableCluster
  | cluster :: rest, randValue =>
    if randValue ≤ tb cluster then .ok cluster else chooseLoop rest (randValue - tb cluster)

/-- `ChooseOne()`; `randValue` is the draw of `rand.Int63n(totalAvailableTB)`. -/
def ClusterController.chooseOne (c : ClusterController) (alg : AlgChoose) (randValue : Int) :
    Except ChooseErr ClusterInfo × ClusterController :=
  match alg with
  | .algAvailable =>
    if c.totalAvailableTB ≤ 0 then (.error .noAvailableSpace, c)
    else (chooseLoop c.available randValue, c)
  | .algRandom =>
    if h : 0 < c.available.length then
      let count := (c.roundRobinCount + 1) % 2 ^ 64
      (.ok (c.available.get ⟨count % c.available.length, Nat.mod_lt _ h⟩),
        { c with roundRobinCount := count })
    else (.error .noAvailableCluster, c)
  | _ => (.error .notImplemented, c)

/-- A new writable cluster whose service controller cannot be made leaves the queue but not the
total, and `ChooseOne` then finds no cluster. -/
theorem load_keeps_removed_capacity :
    let c₀ : ClusterController := ⟨∅, [], 0, [], 0⟩
    let c := c₀.load [⟨some ⟨1, 2 ^ 41, 2 ^ 40, false⟩, some 1⟩] id (fun _ => false) (fun _ => true)
    c.totalAvailableTB = 1 ∧ c.available = [] ∧
      (c.chooseOne .algAvailable 0).1 = .error .noAvailableCluster :=
  ⟨by decide, by decide, rfl⟩

theorem chooseLoop_append (front : List ClusterInfo) (hf : ∀ c ∈ front, 0 ≤ tb c)
    (rest : List ClusterInfo) {r : Int} (hr : (front.map tb).sum < r) :
    chooseLoop (front ++ rest) r = chooseLoop rest (r - (front.map tb).sum) := by
  induction front generalizing r with
  | nil => simp
  | cons c front ih =>
    have hs : 0 ≤ (front.map tb).sum :=
      List.sum_nonneg fun x hx => by
        obtain ⟨y, hy, rfl⟩ := List.mem_map.mp hx
        exact hf y (List.mem_cons_of_mem c hy)
    rw [List.map_cons, List.sum_cons] at hr ⊢
    rw [List.cons_append, chooseLoop, if_neg (by omega),
      ih (fun x hx => hf x (List.mem_cons_of_mem c hx)) (by omega), Int.sub_sub]

theorem chooseLoop_of_mem_range (front : List ClusterInfo) (hf : ∀ c ∈ front, 0 ≤ tb c)
    (c : ClusterInfo) (rest : List ClusterInfo) {r : Int} (hr : (front.map tb).sum < r)
    (hc : r ≤ (front.map tb).sum + tb c) : chooseLoop (front ++ c :: rest) r = .ok c := by
  rw [chooseLoop_append front hf _ hr, chooseLoop, if_pos (by omega)]

/-- Under `AlgAvailable`, with `P` the terabytes of the clusters in front of a cluster in the
queue, every draw in `(P, P + Available >> 40]` chooses that cluster. -/
theorem chooseOne_picks_cluster_in_its_draws (c : ClusterController)
    {front rest : List ClusterInfo} {cl : ClusterInfo} (h : c.available = front ++ cl :: rest)
    (hf : ∀ x ∈ front, 0 ≤ tb x) (hT : 0 < c.totalAvailableTB) {r : Int}
    (hr : (front.map tb).sum < r) (hc : r ≤ (front.map tb).sum + tb cl) :
    (c.chooseOne .algAvailable r).1 = .ok cl := by
  simp only [ClusterController.chooseOne, if_neg (not_le.2 hT), h]
  exact chooseLoop_of_mem_range front hf cl rest hr hc

/-- Clusters of one and two terabytes: the draw 2 chooses the second. -/
theorem chooseOne_picks_cluster_in_its_draws_two :
    (⟨∅, [⟨0, 2 ^ 40, 2 ^ 40, false⟩, ⟨1, 2 ^ 41, 2 ^ 41, false⟩], 3, [], 0⟩ :
      ClusterController).available = [⟨0, 2 ^ 40, 2 ^ 40, false⟩] ++ [⟨1, 2 ^ 41, 2 ^ 41, false⟩] ∧
    (∀ x ∈ [(⟨0, 2 ^ 40, 2 ^ 40, false⟩ : ClusterInfo)], 0 ≤ tb x) ∧
    (0 : Int) < 3 ∧ ([(⟨0, 2 ^ 40, 2 ^ 40, false⟩ : ClusterInfo)].map tb).sum < 2 ∧
    2 ≤ ([(⟨0, 2 ^ 40, 2 ^ 40, false⟩ : ClusterInfo)].map tb).sum + tb ⟨1, 2 ^ 41, 2 ^ 41, false⟩ ∧
    ((⟨∅, [⟨0, 2 ^ 40, 2 ^ 40, false⟩, ⟨1, 2 ^ 41, 2 ^ 41, false⟩], 3, [], 0⟩ :
      ClusterController).chooseOne .algAvailable 2).1 = .ok ⟨1, 2 ^ 41, 2 ^ 41, false⟩ :=
  ⟨rfl, by decide, by decide, by decide, by decide,
    @chooseOne_picks_cluster_in_its_draws ⟨∅, _, 3, [], 0⟩ [⟨0, 2 ^ 40, 2 ^ 40, false⟩] [] _
      rfl (by decide) (by decide) 2 (by decide) (by decide)⟩

/-- Under `AlgAvailable`, when the first cluster holds less than the total, the draws up to its
terabytes, `Available >> 40 + 1` of them, all choose it: one more than its share. -/
theorem chooseOne_first_cluster_overdrawn (c : ClusterController) {c0 : ClusterInfo}
    {rest : List ClusterInfo} (h : c.available = c0 :: rest) (h0 : 0 ≤ tb c0)
    (hT : tb c0 < c.totalAvailableTB) :
    (tb c0).toNat + 1 ≤ ((List.range c.totalAvailableTB.toNat).filter fun r : Nat =>
      (c.chooseOne .algAvailable r).1.toOption == some c0).length := by
  have hfirst : ∀ r ∈ List.range ((tb c0).toNat + 1),
      (c.chooseOne .algAvailable r).1.toOption == some c0 := fun r hr => by
    rw [List.mem_range] at hr
    simp [ClusterController.chooseOne, h, chooseLoop, Except.toOption,
      show ¬ c.totalAvailableTB ≤ 0 by omega, show (r : Int) ≤ tb c0 by omega]
  calc (tb c0).toNat + 1
      = ((List.range ((tb c0).toNat + 1)).filter fun r : Nat =>
          (c.chooseOne .algAvailable r).1.toOption == some c0).length := by
        rw [List.filter_eq_self.mpr hfirst, List.length_range]
    _ ≤ _ := ((List.range_sublist.mpr (by omega)).filter _).length_le

/-- A queue of a cluster with under one terabyte free and one with one terabyte, so that
`totalAvailableTB` is 1: the only draw, 0, chooses the first. -/
theorem chooseOne_picks_empty_cluster :
    let c : ClusterController := ⟨∅, [⟨0, 1, 1, false⟩, ⟨1, 2 ^ 40, 2 ^ 40, false⟩], 1, [], 0⟩
    c.available = ⟨0, 1, 1, false⟩ :: [⟨1, 2 ^ 40, 2 ^ 40, false⟩] ∧
    c.totalAvailableTB = (c.available.map tb).sum ∧ tb ⟨0, 1, 1, false⟩ = 0 ∧
    (c.chooseOne .algAvailable 0).1 = .ok ⟨0, 1, 1, false⟩ ∧
    0 ≤ tb ⟨0, 1, 1, false⟩ ∧ tb ⟨0, 1, 1, false⟩ < c.totalAvailableTB ∧
    (tb ⟨0, 1, 1, false⟩).toNat + 1 ≤ ((List.range c.totalAvailableTB.toNat).filter fun r : Nat =>
      (c.chooseOne .algAvailable r).1.toOption == some ⟨0, 1, 1, false⟩).length :=
  ⟨rfl, by decide, by decide, rfl, by decide, by decide,
    chooseOne_first_cluster_overdrawn ⟨∅, [⟨0, 1, 1, false⟩, ⟨1, 2 ^ 40, 2 ^ 40, false⟩], 1, [], 0⟩
      rfl (by decide) (by decide)⟩

end BlobStore.Controller
