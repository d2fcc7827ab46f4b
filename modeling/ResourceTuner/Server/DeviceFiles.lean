import ResourceTuner.Server.TableCalls
import ResourceTuner.Server.TearDown

/-!
# What a global resource's file holds

The table says which callback ran last for a resource, and the callbacks say what they write.  For a
global resource with the default callbacks and a file of its own this gives the contents of the file at
any time, from the requests that are in the table at that time.

* **`Alone`** — nothing else writes the file of the resource;
* **`contents_of_last`** — the file holds what the last callback for the resource wrote;
* **`file_of_run`** — it holds the value of the node that the resource is awarded to, or its old value.
-/

namespace ResourceTuner

open LastWrite (last?)

/-- A file that opens holds what was last written to it. -/
theorem Device.foldl_write_apply (device : Device) (writes : List (String × String))
    (files : String → String) {path : String} (hopen : device.openable path = true) :
    writes.foldl device.write files path = (last? path writes).getD (files path) := by
  induction writes generalizing files with
  | nil => rfl
  | cons w writes ih =>
    rw [List.foldl_cons, ih, LastWrite.last?_cons]
    cases last? path writes with
    | some value => rfl
    | none =>
      rw [Option.getD_none, Option.none_or, Device.write]
      by_cases hpath : w.1 = path
      · rw [if_pos hpath, hpath, if_pos hopen, Function.update_self, Option.getD_some]
      · rw [if_neg hpath, Option.getD_none]
        split
        · rw [Function.update_of_ne (Ne.symm hpath)]
        · rfl

section Contents

variable {env : Env} {device : Device} {entries : List ResourceRegistration}
  {registrations : List CallbackRegistration} {code : BitVec 32} {conf : ResConfInfo}

/-- The resource is global, with the default callbacks, and its file opens and is of no other resource. -/
structure Alone (env : Env) (device : Device) (code : BitVec 32) (conf : ResConfInfo) : Prop where
  global : conf.mApplyType = .APPLY_GLOBAL
  applier : conf.mResourceApplierCallback = some .defaultGlobalLevelApplierCb
  tear : conf.mResourceTearCallback = some .defaultGlobalLevelTearCb
  opens : device.openable conf.mResourcePath = true
  others : ∀ other conf', env.getResConf other = some conf' → other ≠ code →
    conf.mResourcePath ∉ env.defaultPaths conf'

variable {ext : ExtensionWrites} {callbacks : List Callback}

/-- Only the callbacks for the resource write its file, if no extension does. -/
theorem Alone.frame (halone : Alone env device code conf)
    (h : Prepared env device entries registrations) {cb : Callback} (htargeted : Targeted env cb.node)
    (hext : cb.IsExtension env → conf.mResourcePath ∉ (cb.writesWith ext env).map Prod.fst)
    (hother : cb.node.mData.map (·.mResCode) ≠ some code) :
    conf.mResourcePath ∉ (cb.writesWith ext env).map Prod.fst := by
  intro hmem
  obtain ⟨w, hw, hpath⟩ := List.mem_map.mp hmem
  cases hdata : cb.node.mData with
  | none => simp [Callback.writesWith, hdata] at hw
  | some resource =>
    cases hconf' : env.getResConf resource.mResCode with
    | none => simp [Callback.writesWith, hdata, hconf'] at hw
    | some conf' =>
      rcases h.of_conf hconf' cb with ⟨id, hid⟩ | hdefault
      · exact hext ⟨resource, conf', id, hdata, hconf', hid⟩ hmem
      · have hstored := h.mem_defaultPaths_of_writes ext cb hdata hconf'
          (htargeted resource conf' hdata hconf') hdefault hw
        rw [hpath] at hstored
        refine halone.others resource.mResCode conf' hconf' (fun heq => ?_) hstored
        rw [hdata, Option.map_some, heq] at hother
        exact hother rfl

/-- The file holds what the last callback for the resource wrote. -/
theorem Alone.contents_of_last (halone : Alone env device code conf)
    (h : Prepared env device entries registrations)
    (htargeted : ∀ cb ∈ callbacks, Targeted env cb.node)
    (hext : ∀ cb ∈ callbacks, cb.IsExtension env →
      conf.mResourcePath ∉ (cb.writesWith ext env).map Prod.fst) :
    device.afterCallbacks ext env callbacks conf.mResourcePath =
      (last? conf.mResourcePath ((callbacks.filter fun cb =>
        cb.node.mData.map (·.mResCode) == some code).flatMap
          (Callback.writesWith ext env))).getD (device.contents conf.mResourcePath) := by
  rw [Device.afterCallbacks, device.foldl_write_apply _ _ halone.opens,
    LastWrite.last?_flatMap_filter (p := fun cb => cb.node.mData.map (·.mResCode) == some code)]
  intro cb hcb hother
  exact halone.frame h (htargeted cb hcb) (hext cb hcb) (by simpa using hother)

theorem last?_of_getLast? {path value : String} {cb : Callback}
    (hlast : callbacks.getLast? = some cb) (hwrites : cb.writesWith ext env = [(path, value)]) :
    last? path (callbacks.flatMap (Callback.writesWith ext env)) = some value := by
  obtain ⟨earlier, rfl⟩ := List.getLast?_eq_some_iff.mp hlast
  rw [List.flatMap_append, List.flatMap_singleton, LastWrite.last?_append, hwrites]
  simp

/-- The applier writes the value, the tear what was read. -/
theorem Alone.writesWith (halone : Alone env device code conf)
    (h : Prepared env device entries registrations) (hconf : env.getResConf code = some conf)
    {node : ResIterable} {resource : Resource} (hdata : node.mData = some resource)
    (hcode : resource.mResCode = code) :
    (Callback.applier node).writesWith ext env =
        [(conf.mResourcePath, toString (resource.getValueAt 0))] ∧
      (Callback.tear node).writesWith ext env =
        [(conf.mResourcePath, device.contents conf.mResourcePath)] := by
  have hnamed : ¬ conf.mResourcePath.length = 0 := by
    intro hzero
    have hopens := halone.opens
    rw [String.length_eq_zero_iff.mp hzero, h.named] at hopens
    cases hopens
  have hpath : conf.mResourcePath ∈ env.defaultPaths conf := by
    simp [Env.defaultPaths, ResourceRegistry.defaultPaths, halone.global]
  have hstored := h.lookup_of_mem hconf hpath
  constructor
  · simp only [Callback.writesWith, Callback.node, hdata, hcode, hconf, Callback.of, halone.applier,
      ResourceLifecycleCallback.writesWith, ResourceLifecycleCallback.writes,
      defaultGlobalLevelApplierCb, writeToFile, if_neg hnamed]
  · simp only [Callback.writesWith, Callback.node, hdata, hcode, hconf, Callback.of, halone.tear,
      ResourceLifecycleCallback.writesWith, ResourceLifecycleCallback.writes,
      defaultGlobalLevelTearCb, writeToFile, if_neg hnamed, ResourceRegistry.getDefaultValue, hstored,
      Option.getD_some]

end Contents

namespace Server

/-- **The file of a global resource**, in every state of a run in which no request is inserted whose timer
does not start: while requests in the table are for the resource, it holds the value of a node of one of
the strongest priority among them, the one that the policy prescribes; while none is, it holds what it
held when the resource was registered.  The policy has lists, the mode allows the resource, the files are
single lines and every cpu of a cluster was counted; what clients send is arbitrary. -/
theorem file_of_run {env : Env} {device : Device} {entries : List ResourceRegistration}
    {registrations : List CallbackRegistration} {code : BitVec 32} {conf : ResConfInfo}
    (ext : ExtensionWrites) (h : Prepared env device entries registrations)
    (halone : Alone env device code conf) (hconf : env.getResConf code = some conf)
    (hpolicy : conf.mPolicy ≠ .PASS_THROUGH) (hmode : CocoTable.modeAllows env conf = true)
    {registry : SignalRegistry} {heap : Heap} {events : List Event}
    (hrun : (machine env).Run (init heap) events)
    (hsubmitted : ∀ e ∈ events, (tableScreen env).Submitted registry e ∧
      (targetScreen env h.ids).Submitted registry e)
    (hwhole : (machine env).Steps InsertsWhole (init heap) events)
    (hext : ∀ cb ∈ ((machine env).exec (init heap) events).table.mCallbacks, cb.IsExtension env →
      conf.mResourcePath ∉ (cb.writesWith ext env).map Prod.fst) :
    let s := (machine env).exec (init heap) events
    let file := device.afterCallbacks ext env s.table.mCallbacks conf.mResourcePath
    (∀ req, s.InTable req → s.Wants req code →
      (∀ other, s.InTable other → s.Wants other code →
        (s.heap req).getPriority ≤ (s.heap other).getPriority) →
      ∃ winner head resource, s.InTable winner ∧ head ∈ (s.heap winner).nodes ∧
        (s.heap winner).getPriority = (s.heap req).getPriority ∧
        CocoTable.Prescribed conf.mPolicy (CocoTable.claimants
          (CocoTable.arrivals (tableHistory env heap events)) code (s.heap req).getPriority) head ∧
        head.mData = some resource ∧ resource.mResCode = code ∧
        file = toString (resource.getValueAt 0)) ∧
      ((∀ req, s.InTable req → ¬ s.Wants req code) → file = device.contents conf.mResourcePath) := by
  intro s file
  obtain ⟨calls, live, htable⟩ :=
    tableRun_of_run hrun (fun e he => tableScreen_admits (hsubmitted e he).1) hwhole
  have hawards := htable.awards hconf halone.global hpolicy hmode
  have htargeted := targeted_of_run hrun fun e he => targetScreen_admits (hsubmitted e he).2
  have hfile : file = (last? conf.mResourcePath ((CocoTable.callbacksOf s.table code).flatMap
      (Callback.writesWith ext env))).getD (device.contents conf.mResourcePath) :=
    halone.contents_of_last h htargeted hext
  -- every callback for the resource is on a node with a resource of the code
  have hdata : ∀ cb ∈ CocoTable.callbacksOf s.table code,
      ∃ resource, cb.node.mData = some resource ∧ resource.mResCode = code := by
    intro cb hcb
    have hcode := (List.mem_filter.mp hcb).2
    rw [beq_iff_eq] at hcode
    obtain ⟨resource, hresource, rfl⟩ := Option.map_eq_some_iff.mp hcode
    exact ⟨resource, hresource, rfl⟩
  refine ⟨fun req hin hwants hstrongest => ?_, fun hnone => ?_⟩
  · obtain ⟨winner, head, hwinner, hmem, hpriority, hprescribed, hlast⟩ :=
      hawards.held req hin hwants hstrongest
    obtain ⟨resource, hresource, hcode⟩ := hdata _ (List.mem_of_getLast? hlast)
    refine ⟨winner, head, resource, hwinner, hmem, hpriority, hprescribed, hresource, hcode, ?_⟩
    have hwrites : (Callback.applier head).writesWith ext env = _ :=
      (halone.writesWith h hconf hresource hcode).1
    rw [hfile, last?_of_getLast? hlast hwrites, Option.getD_some]
  · rcases hawards.idle hnone with hempty | ⟨node, hlast⟩
    · rw [hfile, hempty]
      rfl
    · obtain ⟨resource, hresource, hcode⟩ := hdata _ (List.mem_of_getLast? hlast)
      have hwrites : (Callback.tear node).writesWith ext env = _ :=
        (halone.writesWith h hconf hresource hcode).2
      rw [hfile, last?_of_getLast? hlast hwrites, Option.getD_some]

end Server

namespace Sample

/-- No other resource of the sample registry has the file of the global one. -/
theorem alone_global :
    Alone env namedDevice (code 1) globalConf.setLifeCycleCallbacks where
  global := rfl
  applier := rfl
  tear := rfl
  opens := by decide
  others other conf' hconf hne := by
    have hall : ∀ e ∈ env.resourceRegistry.mSystemIndependentLayerMappings.entries, e.1 ≠ code 1 →
        ∀ c ∈ env.resourceRegistry.mResourceConfigs[e.2]?, "/sys/global" ∉ env.defaultPaths c := by
      decide +kernel
    obtain ⟨i, hlookup, hrow, -⟩ := ResourceRegistry.getResConf_eq_some hconf
    exact hall ⟨other, i⟩ (AList.mem_lookup_iff.mp hlookup) hne conf' hrow

end Sample

open Server

theorem file_of_rivals : ∃ (winner : ReqPtr) (resource : Resource),
    ((machine Sample.env).exec Sample.server Sample.rivals).InTable winner ∧
      resource.mResCode = Sample.code 1 ∧
      Sample.namedDevice.afterCallbacks (fun _ _ => []) Sample.env
        ((machine Sample.env).exec Sample.server Sample.rivals).table.mCallbacks "/sys/global" =
          toString (resource.getValueAt 0) := by
  have hconf : Sample.env.getResConf (Sample.code 1) =
      some Sample.globalConf.setLifeCycleCallbacks := by decide
  have htarget : ∀ e ∈ Sample.rivals, (targetScreen Sample.env Sample.prepared.ids).Admits e := by
    simp only [Sample.rivals, List.forall_mem_append]
    exact ⟨⟨⟨Sample.admits_worker trivial, Sample.admits_drain⟩, Sample.admits_worker trivial⟩,
      Sample.admits_drain⟩
  have hsilent : ∀ cb : Callback, cb.IsExtension Sample.env →
      "/sys/global" ∉ (cb.writesWith (fun _ _ => []) Sample.env).map Prod.fst := by
    rintro cb ⟨resource, conf, id, hdata, hrow, hid⟩
    simp [Callback.writesWith, hdata, hrow, hid, ResourceLifecycleCallback.writesWith]
  have hfile := file_of_run (fun _ _ => []) Sample.prepared Sample.alone_global hconf (by decide)
    (by decide) Sample.rivals_run
    (fun e he => ⟨Sample.rivals_submitted e he, Screen.submitted_of_admits (htarget e he)⟩)
    (by decide) fun cb _ => hsilent cb
  obtain ⟨winner, head, resource, hwinner, -, -, -, -, hcode, hcontents⟩ :=
    hfile.1 1 Sample.rivals_inTable (by decide) fun other hother _ => Sample.rivals_strongest other hother
  exact ⟨winner, resource, hwinner, hcode, hcontents⟩

end ResourceTuner
