import Mathlib
import Dispatch.City.Simulation
import Dispatch.Proofs.Trace
/-!
# The chronicle of a simulation

A chronicle (`Settings.Chronicle`) is the sequence of the ticks that a simulation completed, each
from the city that the tick before left. Every run has one, whether it ends or fails
(`Settings.runTicks_completed`), and a city with a chronicle that fits is what the run ends in
(`Settings.simulate_ok_iff`).

A tick leaves the map, who is there and what is out as they were (`Scenario.Later`).
`Settings.simulations_keep_a_chronicle` says what follows for a whole run: what it leaves, also in
the middle of a failure, and what its logs and its recorder tell.
-/

namespace Dispatch

/-- Of entries with one key the last one counts. -/
theorem SortedMap.get?_ofList_eq_find? {κ β : Type} [Ranked κ] [DecidableEq κ] (l : List (κ × β))
    (k : κ) :
    (SortedMap.ofList l).get? k = (l.reverse.find? fun e => e.1 = k).map Prod.snd := by
  induction l using List.reverseRecOn with
  | nil => rfl
  | append_singleton l e ih =>
    have hsnoc : SortedMap.ofList (l ++ [e]) = (SortedMap.ofList l).insert e.1 e.2 := by
      simp only [SortedMap.ofList, List.foldl_append, List.foldl_cons, List.foldl_nil]
    rw [hsnoc, SortedMap.get?_insert, ih, List.reverse_append, List.reverse_singleton,
      List.singleton_append, List.find?_cons]
    by_cases hk : e.1 = k
    · simp [hk]
    · rw [if_neg fun h => hk (rank_inj h)]
      simp [hk]

/-- Whatever a map made of a list gives for a key stands under that key in the list. -/
theorem SortedMap.mem_of_get?_ofList {κ β : Type} [Ranked κ] [DecidableEq κ] {l : List (κ × β)}
    {k : κ} {v : β} (h : (SortedMap.ofList l).get? k = some v) : (k, v) ∈ l := by
  rw [get?_ofList_eq_find?] at h
  obtain ⟨e, he, rfl⟩ := Option.map_eq_some_iff.1 h
  have hk : e.1 = k := by simpa using List.find?_some he
  subst hk
  exact List.mem_reverse.1 (List.mem_of_find?_eq_some he)

/-- If a list has nothing else under a key, this is what a map made of it gives. -/
theorem SortedMap.get?_ofList_of_forall {κ β : Type} [Ranked κ] [DecidableEq κ] {l : List (κ × β)}
    {k : κ} {v : β} (hin : (k, v) ∈ l) (hall : ∀ w, (k, w) ∈ l → w = v) :
    (SortedMap.ofList l).get? k = some v := by
  have hfound : (l.reverse.find? fun e => e.1 = k).isSome :=
    List.find?_isSome.2 ⟨(k, v), List.mem_reverse.2 hin, decide_eq_true rfl⟩
  obtain ⟨w, hw⟩ : ∃ w, (SortedMap.ofList l).get? k = some w := by
    rw [← Option.isSome_iff_exists, get?_ofList_eq_find?, Option.isSome_map]
    exact hfound
  rw [hw, hall w (mem_of_get?_ofList hw)]

namespace City
variable {α : Type} [Scalar α]

/-! ## What ticks leave as it was -/

/-- The same fire at a later time: what is out stays as it is. -/
structure Fire.Later (f g : Fire α) : Prop where
  id_eq : g.id = f.id
  area_eq : g.area = f.area
  eq_of_out : f.isBurning = false → g = f

theorem Fire.Later.trans {f g h : Fire α} (hfg : f.Later g) (hgh : g.Later h) : f.Later h where
  id_eq := hgh.id_eq.trans hfg.id_eq
  area_eq := hgh.area_eq.trans hfg.area_eq
  eq_of_out hout := by
    obtain rfl := hfg.eq_of_out hout
    exact hgh.eq_of_out hout

theorem Fire.Later.trans_all {fs gs hs : List (Fire α)} (hfg : List.Forall₂ Fire.Later fs gs)
    (hgh : List.Forall₂ Fire.Later gs hs) : List.Forall₂ Fire.Later fs hs := by
  induction hfg generalizing hs with
  | nil => exact hgh
  | cons hf _ ih =>
    cases hgh with
    | cons hg hgs => exact .cons (hf.trans hg) (ih hgs)

theorem Fire.later_evolve (f : Fire α) (capacity growth : α) (crew : Nat) :
    f.Later (f.evolve capacity growth crew) := by
  unfold Fire.evolve
  split
  · rename_i hburns
    exact ⟨rfl, rfl, fun hout => by simp [hburns] at hout⟩
  · exact ⟨rfl, rfl, fun _ => rfl⟩

namespace Scenario

omit [Scalar α] in
theorem validate_eq_ok_iff {s : Scenario α} :
    s.validate = .ok () ↔ ∀ id ∈ s.places, (s.area? id).isSome := by
  unfold validate
  split
  · rename_i id hfind
    constructor
    · intro h
      cases h
    · intro h
      have hnone := List.find?_some hfind
      have hsome := h id (List.mem_of_find?_eq_some hfind)
      rw [Option.isNone_iff_eq_none] at hnone
      rw [hnone] at hsome
      cases hsome
  · rename_i hfind
    constructor
    · intro _ id hid
      simpa [Option.isSome_iff_ne_none] using List.find?_eq_none.1 hfind id hid
    · intro _
      rfl

/-- The same city at a later time. Brigades may have moved, but to places where somebody stood or
something burned before. -/
structure Later (s t : Scenario α) : Prop where
  areas_eq : t.areas = s.areas
  brigades_eq : t.brigades.map (·.id) = s.brigades.map (·.id)
  fires : List.Forall₂ Fire.Later s.fires t.fires
  places_subset : t.places ⊆ s.places

namespace Later

theorem refl (s : Scenario α) : s.Later s where
  areas_eq := rfl
  brigades_eq := rfl
  fires := List.forall₂_same.2 fun _ _ => ⟨rfl, rfl, fun _ => rfl⟩
  places_subset := List.Subset.refl _

theorem trans {s t u : Scenario α} (hst : s.Later t) (htu : t.Later u) : s.Later u where
  areas_eq := htu.areas_eq.trans hst.areas_eq
  brigades_eq := htu.brigades_eq.trans hst.brigades_eq
  fires := Fire.Later.trans_all hst.fires htu.fires
  places_subset := List.Subset.trans htu.places_subset hst.places_subset

variable {s t : Scenario α}

/-- A city that is in order stays in order. -/
theorem validate_eq (h : s.Later t) (hvalid : s.validate = .ok ()) : t.validate = .ok () := by
  rw [validate_eq_ok_iff] at hvalid ⊢
  intro id hid
  unfold area?
  rw [h.areas_eq]
  exact hvalid id (h.places_subset hid)

theorem fire_ids_eq (h : s.Later t) : t.fires.map (·.id) = s.fires.map (·.id) := by
  have hids : ∀ {fs gs : List (Fire α)}, List.Forall₂ Fire.Later fs gs →
      gs.map (·.id) = fs.map (·.id) := by
    intro fs gs hfires
    induction hfires with
    | nil => rfl
    | cons hfg _ ih => rw [List.map_cons, List.map_cons, hfg.id_eq, ih]
  exact hids h.fires

/-- No fire breaks out. -/
theorem length_burning_le (h : s.Later t) : t.burning.length ≤ s.burning.length := by
  have hcount : ∀ {fs gs : List (Fire α)}, List.Forall₂ Fire.Later fs gs →
      gs.countP Fire.isBurning ≤ fs.countP Fire.isBurning := by
    intro fs gs hfires
    induction hfires with
    | nil => exact le_rfl
    | @cons f g fs gs hfg _ ih =>
      cases hf : f.isBurning with
      | true =>
        rw [List.countP_cons_of_pos hf, List.countP_cons]
        split <;> omega
      | false =>
        obtain rfl := hfg.eq_of_out hf
        rwa [List.countP_cons_of_neg (by simp [hf]), List.countP_cons_of_neg (by simp [hf])]
  rw [burning, burning, ← List.countP_eq_length_filter, ← List.countP_eq_length_filter]
  exact hcount h.fires

end Later

omit [Scalar α] in
/-- A brigade goes to where a fire of the city is, if it goes anywhere. -/
theorem area_move (s : Scenario α) (x : Assignment) (b : Brigade) :
    (s.move x b).area = b.area ∨ (s.move x b).area ∈ s.fires.map (·.area) := by
  unfold move
  split
  · rename_i area harea
    obtain ⟨fire, -, hfire⟩ := Option.bind_eq_some_iff.1 harea
    obtain ⟨f, hf, hentry⟩ := List.mem_map.1 (SortedMap.mem_of_get?_ofList hfire)
    refine .inr (List.mem_map.2 ⟨f, hf, ?_⟩)
    exact (Prod.mk.inj hentry).2
  · exact .inl rfl

omit [Scalar α] in
theorem id_move (s : Scenario α) (x : Assignment) (b : Brigade) : (s.move x b).id = b.id := by
  unfold move
  split <;> rfl

theorem later_evolve (s : Scenario α) (x : Assignment) (capacity growth : α) :
    s.Later (s.evolve x capacity growth) where
  areas_eq := rfl
  brigades_eq := by
    rw [evolve, List.map_map]
    exact List.map_congr_left fun b _ => s.id_move x b
  fires := by
    rw [evolve, List.forall₂_map_right_iff, List.forall₂_same]
    exact fun f _ => f.later_evolve capacity growth _
  places_subset := by
    have hfires : (s.fires.map fun f => f.evolve capacity growth (x.count f.id)).map (·.area) =
        s.fires.map (·.area) := by
      rw [List.map_map]
      exact List.map_congr_left fun f _ => (f.later_evolve capacity growth _).area_eq
    intro id hid
    simp only [places, evolve, hfires, List.mem_append] at hid ⊢
    rcases hid with hid | hid
    · obtain ⟨c, hc, rfl⟩ := List.mem_map.1 hid
      obtain ⟨b, hb, rfl⟩ := List.mem_map.1 hc
      rcases s.area_move x b with hstays | hgoes
      · exact .inl (List.mem_map.2 ⟨b, hb, hstays.symm⟩)
      · exact .inr hgoes
    · exact .inr hid

end Scenario

/-! ## Ticks -/

namespace Settings

section Ticks
variable {settings : Settings α} {world : World α} {k : Nat} {s : Scenario α}

/-- A tick succeeds if the ways can be measured and the problem of the city is solved. -/
theorem solveTick_eq_ok_iff {solution : Solution α} :
    (settings.solveTick world k s).answer = .ok solution ↔
      TravelUtility.overflows world.metric s = false ∧
        (settings.solveCity world k s).answer = .ok solution := by
  unfold solveTick
  cases TravelUtility.overflows world.metric s with
  | true => simp
  | false => cases h : (settings.solveCity world k s).answer <;> simp [h, Except.mapError]

/-- It fails over a way that is too long, or with the failure of its solve. -/
theorem solveTick_eq_error_iff {e : Failure α} :
    (settings.solveTick world k s).answer = .error e ↔
      (TravelUtility.overflows world.metric s = true ∧ e = .coordinateOverflow) ∨
        TravelUtility.overflows world.metric s = false ∧
          ∃ cause, (settings.solveCity world k s).answer = .error cause ∧ e = .tick k cause := by
  unfold solveTick
  cases TravelUtility.overflows world.metric s with
  | true => simp [eq_comm]
  | false =>
    cases h : (settings.solveCity world k s).answer <;> simp [h, Except.mapError, eq_comm]

end Ticks

/-! ## Chronicles -/

/-- From tick `k` on, the city came from `s` to `t` in the ticks that the records tell of. -/
inductive Chronicle (settings : Settings α) (world : World α) :
    (k : Nat) → (s : Scenario α) → List (TickRecord α) → (t : Scenario α) → Prop
  | nil {k s} : Chronicle settings world k s [] s
  | cons {k s t solution records} (hburns : s.burning ≠ [])
      (hsolved : (settings.solveTick world k s).answer = .ok solution)
      (rest : Chronicle settings world (k + 1)
        (s.evolve solution.assignment settings.capacity settings.growth) records t) :
      Chronicle settings world k s (.of k s solution (world.solveMs k) :: records) t

namespace Chronicle
variable {settings : Settings α} {world : World α} {k : Nat} {s t : Scenario α}
  {records : List (TickRecord α)}

theorem later (h : settings.Chronicle world k s records t) : s.Later t := by
  induction h with
  | nil => exact .refl _
  | cons _ _ _ ih => exact (Scenario.later_evolve _ _ _ _).trans ih

theorem ticks_eq (h : settings.Chronicle world k s records t) :
    records.map (·.tick) = List.range' k records.length := by
  induction h with
  | nil => rfl
  | cons _ _ _ ih => rw [List.map_cons, ih, List.length_cons, List.range'_succ]; rfl

/-- A chronicle can be cut anywhere. -/
theorem append_iff {before after : List (TickRecord α)} :
    settings.Chronicle world k s (before ++ after) t ↔
      ∃ city, settings.Chronicle world k s before city ∧
        settings.Chronicle world (k + before.length) city after t := by
  constructor
  · intro h
    induction before generalizing k s with
    | nil => exact ⟨s, .nil, h⟩
    | cons r before ih =>
      cases h with
      | cons hburns hsolved rest =>
        obtain ⟨city, hbefore, hafter⟩ := ih rest
        refine ⟨city, .cons hburns hsolved hbefore, ?_⟩
        rwa [List.length_cons, Nat.add_comm before.length, ← Nat.add_assoc]
  · rintro ⟨city, hbefore, hafter⟩
    induction hbefore with
    | nil => exact hafter
    | cons hburns hsolved _ ih =>
      refine .cons hburns hsolved (ih ?_)
      rwa [List.length_cons, Nat.add_comm _ 1, ← Nat.add_assoc] at hafter

/-- No other city comes of the same ticks. -/
theorem unique (h : settings.Chronicle world k s records t) {city : Scenario α}
    (hcity : settings.Chronicle world k s records city) : city = t := by
  induction h with
  | nil =>
    cases hcity
    rfl
  | @cons k s t solution records _ hsolved _ ih =>
    generalize hrecords : TickRecord.of k s solution (world.solveMs k) :: records = told at hcity
    cases hcity with
    | nil => cases hrecords
    | cons _ hresolved rest =>
      obtain rfl := Except.ok.inj (hsolved.symm.trans hresolved)
      obtain rfl := (List.cons.inj hrecords).2
      exact ih rest

/-- Each record is about the city that the ticks before it left. -/
theorem record_of (h : settings.Chronicle world k s records t) {before after : List (TickRecord α)}
    {r : TickRecord α} (hrecords : records = before ++ r :: after) :
    ∃ city solution, settings.Chronicle world k s before city ∧ city.burning ≠ [] ∧
      (settings.solveTick world (k + before.length) city).answer = .ok solution ∧
      r = .of (k + before.length) city solution (world.solveMs (k + before.length)) := by
  subst hrecords
  obtain ⟨city, hbefore, hafter⟩ := append_iff.1 h
  cases hafter with
  | cons hburns hsolved _ => exact ⟨city, _, hbefore, hburns, hsolved, rfl⟩

/-- What a tick does is the evolution of that city under the assignment that the tick solved for. -/
theorem tick_of (h : settings.Chronicle world k s records t) {before after : List (TickRecord α)}
    {r : TickRecord α} (hrecords : records = before ++ r :: after) :
    ∃ city solution, settings.Chronicle world k s before city ∧
      (settings.solveTick world (k + before.length) city).answer = .ok solution ∧
      settings.Chronicle world k s (before ++ [r])
        (city.evolve solution.assignment settings.capacity settings.growth) := by
  obtain ⟨city, solution, hbefore, hburns, hsolved, rfl⟩ := h.record_of hrecords
  exact ⟨city, solution, hbefore, hsolved,
    append_iff.2 ⟨city, hbefore, .cons hburns hsolved .nil⟩⟩

/-- No record counts more fires than burned at first. -/
theorem burningFires_le (h : settings.Chronicle world k s records t) :
    ∀ r ∈ records, r.burningFires ≤ s.burning.length := by
  intro r hr
  obtain ⟨before, after, hrecords⟩ := List.append_of_mem hr
  obtain ⟨city, solution, hbefore, -, -, rfl⟩ := h.record_of hrecords
  exact hbefore.later.length_burning_le

theorem pairwise_burningFires (h : settings.Chronicle world k s records t) :
    records.Pairwise fun a b => b.burningFires ≤ a.burningFires := by
  induction h with
  | nil => exact .nil
  | cons _ _ rest ih =>
    refine .cons (fun r hr => ?_) ih
    exact (rest.burningFires_le r hr).trans (Scenario.later_evolve _ _ _ _).length_burning_le

end Chronicle

/-! ## Runs -/

/-- A run of up to `remaining` ticks from tick `k` in `s`, of which it completed those of the
records: it ended with them, or failed in the next. -/
structure Completed (settings : Settings α) (world : World α) (recording : Bool) (k : Nat)
    (s : Scenario α) (remaining : Nat) (records : List (TickRecord α)) (run : Run α) : Prop where
  chronicle : settings.Chronicle world k s records run.scenario
  reported_eq : run.reported = if recording then records.map (·.stats) else []
  ending :
    (run.answer = .ok records ∧ records.length ≤ remaining ∧
        (records.length < remaining → run.scenario.burning = [])) ∨
      ∃ e, run.answer = .error e ∧ records.length < remaining ∧ run.scenario.burning ≠ [] ∧
        (settings.solveTick world (k + records.length) run.scenario).answer = .error e

/-- What a run that ends returns are the records of the ticks it completed. -/
theorem Completed.eq_of_ok {settings : Settings α} {world : World α} {recording : Bool}
    {k remaining : Nat} {s : Scenario α} {records told : List (TickRecord α)} {run : Run α}
    (h : settings.Completed world recording k s remaining records run)
    (hok : run.answer = .ok told) : records = told := by
  rcases h.ending with ⟨hanswer, -⟩ | ⟨e, herror, -⟩
  · exact Except.ok.inj (hanswer.symm.trans hok)
  · cases hok.symm.trans herror

variable (settings : Settings α) (world : World α) (recording : Bool)

theorem runTicks_completed (k : Nat) (s : Scenario α) (remaining : Nat) :
    ∃ records, settings.Completed world recording k s remaining records
      (settings.runTicks world recording k s remaining) := by
  induction remaining generalizing k s with
  | zero =>
    exact ⟨[], .nil, by simp [runTicks], .inl ⟨rfl, le_rfl, fun h => absurd h (lt_irrefl _)⟩⟩
  | succ remaining ih =>
    rw [runTicks]
    split
    · rename_i hout
      exact ⟨[], .nil, by simp, .inl ⟨rfl, Nat.zero_le _, fun _ => List.isEmpty_iff.1 hout⟩⟩
    · rename_i hburns
      replace hburns : s.burning ≠ [] := fun h => hburns (List.isEmpty_iff.2 h)
      dsimp only
      split
      · rename_i e hfailed
        exact ⟨[], .nil, by simp, .inr ⟨e, rfl, Nat.succ_pos _, hburns, hfailed⟩⟩
      · rename_i solution hsolved
        obtain ⟨records, hrest⟩ :=
          ih (k + 1) (s.evolve solution.assignment settings.capacity settings.growth)
        refine ⟨_ :: records, .cons hburns hsolved hrest.chronicle, ?_, ?_⟩
        · rw [hrest.reported_eq]
          cases recording <;> rfl
        · have hnext : k + (records.length + 1) = k + 1 + records.length := by omega
          simp only [List.length_cons, hnext]
          rcases hrest.ending with ⟨hanswer, hle, hout⟩ | ⟨e, hanswer, hlt, hburns, hfailed⟩
          · exact .inl ⟨by rw [hanswer]; rfl, by omega, fun hlt => hout (by omega)⟩
          · exact .inr ⟨e, by rw [hanswer]; rfl, by omega, hburns, hfailed⟩

variable {settings world}

/-- A chronicle that uses up the ticks, or ends where nothing burns, is that of the run. -/
theorem runTicks_of_chronicle {k remaining : Nat} {s t : Scenario α}
    {records : List (TickRecord α)} (h : settings.Chronicle world k s records t)
    (hle : records.length ≤ remaining) (hout : records.length < remaining → t.burning = []) :
    (settings.runTicks world recording k s remaining).answer = .ok records ∧
      (settings.runTicks world recording k s remaining).scenario = t := by
  induction h generalizing remaining with
  | nil =>
    cases remaining with
    | zero => exact ⟨rfl, rfl⟩
    | succ remaining =>
      rw [runTicks, if_pos (List.isEmpty_iff.2 (hout (Nat.succ_pos _)))]
      exact ⟨rfl, rfl⟩
  | cons hburns hsolved _ ih =>
    cases remaining with
    | zero => cases hle
    | succ remaining =>
      obtain ⟨hanswer, hscenario⟩ :=
        ih (Nat.le_of_succ_le_succ hle) fun hlt => hout (Nat.succ_lt_succ hlt)
      rw [runTicks, if_neg fun h => hburns (List.isEmpty_iff.1 h)]
      simp only [hsolved, hanswer, hscenario]
      exact ⟨rfl, trivial⟩

theorem simulate_of_valid {s : Scenario α} (hsettings : settings.validate = .ok ())
    (hvalid : s.validate = .ok ()) :
    settings.simulate world recording s =
      settings.runTicks world recording 1 s settings.ticks := by
  simp only [simulate, hsettings, hvalid]

theorem simulate_completed (world : World α) (recording : Bool) {s : Scenario α}
    (hsettings : settings.validate = .ok ()) (hvalid : s.validate = .ok ()) :
    ∃ records, settings.Completed world recording 1 s settings.ticks records
      (settings.simulate world recording s) := by
  rw [simulate_of_valid recording hsettings hvalid]
  exact settings.runTicks_completed world recording 1 s settings.ticks

/-- What a simulation ends in, and with which logs. -/
theorem simulate_ok_iff {s t : Scenario α} {records : List (TickRecord α)} :
    ((settings.simulate world recording s).answer = .ok records ∧
        (settings.simulate world recording s).scenario = t) ↔
      settings.validate = .ok () ∧ s.validate = .ok () ∧
        settings.Chronicle world 1 s records t ∧ records.length ≤ settings.ticks ∧
        (records.length < settings.ticks → t.burning = []) := by
  constructor
  · rintro ⟨hanswer, rfl⟩
    have hsettings : settings.validate = .ok () := by
      cases h : settings.validate with
      | ok _ => rfl
      | error e => simp [simulate, h] at hanswer
    have hvalid : s.validate = .ok () := by
      cases h : s.validate with
      | ok _ => rfl
      | error e => simp [simulate, hsettings, h] at hanswer
    rw [simulate_of_valid recording hsettings hvalid] at hanswer ⊢
    obtain ⟨completed, hrun⟩ := settings.runTicks_completed world recording 1 s settings.ticks
    obtain rfl := hrun.eq_of_ok hanswer
    rcases hrun.ending with ⟨-, hle, hout⟩ | ⟨e, herror, -⟩
    · exact ⟨hsettings, hvalid, hrun.chronicle, hle, hout⟩
    · cases hanswer.symm.trans herror
  · rintro ⟨hsettings, hvalid, hchronicle, hle, hout⟩
    rw [simulate_of_valid recording hsettings hvalid]
    exact runTicks_of_chronicle recording hchronicle hle hout

/-! ## Whole simulations -/

/-- How many ticks a simulation may take does not change what it does in them. -/
theorem Chronicle.with_ticks {k : Nat} {s t : Scenario α} {records : List (TickRecord α)}
    (h : settings.Chronicle world k s records t) (ticks : Nat) :
    ({ settings with ticks } : Settings α).Chronicle world k s records t := by
  induction h with
  | nil => exact .nil
  | cons hburns hsolved _ ih => exact .cons hburns hsolved ih

/-- What the records tell of the ticks that led from `s` to `t`. -/
structure Chronicled (settings : Settings α) (world : World α) (s : Scenario α)
    (records : List (TickRecord α)) (t : Scenario α) : Prop where
  chronicle : settings.Chronicle world 1 s records t
  unique : ∀ city, settings.Chronicle world 1 s records city → city = t
  ticks_eq : records.map (·.tick) = List.range' 1 records.length
  falling : records.Pairwise fun a b => b.burningFires ≤ a.burningFires
  /-- A record counts the fires that burned before its tick. -/
  record_of : ∀ before r after, records = before ++ r :: after →
    ∃ city, settings.Chronicle world 1 s before city ∧ city.validate = .ok () ∧
      r.burningFires = city.burning.length ∧ 0 < r.burningFires
  /-- So it goes from any moment to any later one. -/
  moments : ∀ before between after, records = before ++ between ++ after →
    ∃ sooner later, settings.Chronicle world 1 s before sooner ∧
      settings.Chronicle world 1 s (before ++ between) later ∧
      sooner.Later later ∧ later.Later t

theorem Chronicle.chronicled {s t : Scenario α} {records : List (TickRecord α)}
    (h : settings.Chronicle world 1 s records t) (hvalid : s.validate = .ok ()) :
    settings.Chronicled world s records t where
  chronicle := h
  unique _ := h.unique
  ticks_eq := h.ticks_eq
  falling := h.pairwise_burningFires
  record_of before r after hrecords := by
    obtain ⟨city, solution, hbefore, hburns, -, rfl⟩ := h.record_of hrecords
    exact ⟨city, hbefore, hbefore.later.validate_eq hvalid, rfl, List.length_pos_iff.2 hburns⟩
  moments before between after hrecords := by
    subst hrecords
    obtain ⟨later, huntil, hafter⟩ := append_iff.1 h
    obtain ⟨sooner, hbefore, hbetween⟩ := append_iff.1 huntil
    exact ⟨sooner, later, hbefore, huntil, hbetween.later, hafter.later⟩

/-- A simulation of a city that is in order keeps a chronicle, whether it ends or fails at some
tick: areas, brigades and fires are those of the start, in the same order and with the fires where
they were, the city stays in order, and what is out stays as it is, from any moment to any later
one. The records of the ticks completed are numbered from one, each counts the fires that burned
before its tick, at least one and never more than the one before, and the recorder got their
statistics. A simulation that ends returns them, and stops early only if nothing burns; one that
fails at a tick, in its solve or over a way that is too long, leaves the city as the ticks before
left it. -/
theorem simulations_keep_a_chronicle (settings : Settings α) (world : World α) (recording : Bool)
    {s : Scenario α} (hvalid : s.validate = .ok ()) :
    let run := settings.simulate world recording s
    s.Later run.scenario ∧ run.scenario.validate = .ok () ∧
    ∃ records, settings.Chronicled world s records run.scenario ∧
      run.reported = (if recording then records.map (·.stats) else []) ∧
      ((run.answer = .ok records ∧ records.length ≤ settings.ticks ∧
          (records.length < settings.ticks → run.scenario.burning = [])) ∨
        (∃ e, settings.validate = .error e ∧ run.answer = .error e ∧ run.scenario = s ∧
          records = []) ∨
        ∃ e, run.answer = .error e ∧
          records.length < settings.ticks ∧ run.scenario.burning ≠ [] ∧
          (settings.solveTick world (records.length + 1) run.scenario).answer = .error e ∧
          ((∃ cause, e = .tick (records.length + 1) cause) ∨ e = .coordinateOverflow) ∧
          let shorter := ({ settings with ticks := records.length } : Settings α).simulate world
            recording s
          shorter.answer = .ok records ∧ shorter.scenario = run.scenario) := by
  intro run
  cases hsettings : settings.validate with
  | error e =>
    have hrun : run = ⟨s, [], [], .error e⟩ := by simp only [run, simulate, hsettings]
    rw [hrun]
    exact ⟨.refl s, hvalid, [], Chronicle.nil.chronicled hvalid, by simp,
      .inr (.inl ⟨e, rfl, rfl, rfl, rfl⟩)⟩
  | ok _ =>
    obtain ⟨records, hrun⟩ := settings.runTicks_completed world recording 1 s settings.ticks
    rw [← simulate_of_valid recording hsettings hvalid] at hrun
    have hlater := hrun.chronicle.later
    refine ⟨hlater, hlater.validate_eq hvalid, records, hrun.chronicle.chronicled hvalid,
      hrun.reported_eq, ?_⟩
    rcases hrun.ending with hended | ⟨e, hanswer, hlt, hburns, hfailed⟩
    · exact .inl hended
    · rw [Nat.add_comm 1] at hfailed
      have hcause : (∃ cause, e = .tick (records.length + 1) cause) ∨ e = .coordinateOverflow := by
        rcases solveTick_eq_error_iff.1 hfailed with ⟨-, he⟩ | ⟨-, cause, -, he⟩
        · exact .inr he
        · exact .inl ⟨cause, he⟩
      refine .inr (.inr ⟨e, hanswer, hlt, hburns, hfailed, hcause, ?_⟩)
      exact (simulate_ok_iff recording).2
        ⟨hsettings, hvalid, hrun.chronicle.with_ticks _, le_rfl, fun h => absurd h (lt_irrefl _)⟩

/-- Two areas, two brigades in the first of them, and two fires that burn beside one that is out. -/
def suburb : Scenario Rat where
  areas := [⟨.ofNat 1, 0, 0⟩, ⟨.ofNat 2, 300, 400⟩]
  brigades := [⟨.ofNat 1, .ofNat 1⟩, ⟨.ofNat 2, .ofNat 1⟩]
  fires := [⟨.ofNat 7, .ofNat 2, 3⟩, ⟨.ofNat 8, .ofNat 1, 1⟩, ⟨.ofNat 9, .ofNat 2, -1⟩]

/-- Ways that follow the streets. Their differences of coordinates are checked. -/
def streets : Metric Rat where
  way a b := |((a.x - b.x).toInt : Int)| + |((a.y - b.y).toInt : Int)|
  overflowChecks := true

def weekday : World Rat := ⟨streets, fun _ _ _ => true, fun _ => .still, fun _ => 5⟩

def drill : Settings Rat := { Settings.default with ticks := 6 }

theorem drill_valid : drill.validate = .ok () := by decide +kernel

theorem suburb_valid : suburb.validate = .ok () := by decide +kernel

theorem suburb_drill_ends :
    ∃ records, (drill.simulate weekday true suburb).answer = .ok records ∧ records.length = 2 := by
  have hlength : (drill.simulate weekday true suburb).answer.toOption.map List.length = some 2 := by
    decide +kernel
  exact Solver.eq_ok_of_map_eq_some hlength

/-- The drill is over after the second of six ticks. -/
theorem suburb_drill_is_chronicled :
    suburb.validate = .ok () ∧ ∃ records,
      (drill.simulate weekday true suburb).answer = .ok records ∧
      records.map (·.burningFires) = [2, 1] ∧
      drill.Chronicled weekday suburb records (drill.simulate weekday true suburb).scenario ∧
      (drill.simulate weekday true suburb).reported = records.map (·.stats) ∧
      (drill.simulate weekday true suburb).scenario.burning = [] := by
  have hvalid : suburb.validate = .ok () := by decide +kernel
  have hcounts : (drill.simulate weekday true suburb).answer.toOption.map
      (fun records => records.map (·.burningFires)) = some [2, 1] := by
    decide +kernel
  obtain ⟨records, hanswer, hcounts⟩ := Solver.eq_ok_of_map_eq_some hcounts
  obtain ⟨-, -, told, htold, hreported, hending⟩ :=
    simulations_keep_a_chronicle drill weekday true hvalid
  rcases hending with ⟨hok, -, hout⟩ | ⟨e, -, herror, -⟩ | ⟨e, herror, -⟩
  · obtain rfl : told = records := Except.ok.inj (hok.symm.trans hanswer)
    have hlength : told.length = 2 := by simpa using congrArg List.length hcounts
    exact ⟨hvalid, told, hanswer, hcounts, htold, hreported, hout (hlength ▸ by decide)⟩
  · cases hanswer.symm.trans herror
  · cases hanswer.symm.trans herror

end Settings

end City

end Dispatch
