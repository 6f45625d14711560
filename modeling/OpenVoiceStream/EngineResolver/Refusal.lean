import OpenVoiceStream.EngineResolver.Effect

/-!
# Engines that have been refused

A call refuses the bytes of an engine for its host where there is a sidecar that does not
vouch for them. The refusal is to last until a bundle for the host has brought the bytes.

The sidecar that refused them is removed before the hub is asked, so the next call may find
an engine without a sidecar and adopt it; and a bundle that does not hold the engine has its
name written on the one that is there.

## Main definitions

* `Call`, `History` — the calls for an engine, and what they have refused so far.
* `StaysRefused` — no call returns over bytes refused for its host.
* `Settles`, `Settled` — the calls that take neither of the two branches.

## Main results

* `Remembers.step` — after such a call no sidecar vouches for what has been refused.
* `staysRefused_of_settled` — runs of such calls.
-/

namespace OpenVoiceStream.EngineResolver

variable {β : Type}

/-- A call of `_resolve_one` with `force_rebuild` off: its host, the hub and the time. -/
structure Call (β : Type) where
  host : HostSignature
  hub : Hub β
  now : ℤ

/-- The files, and the bytes that have been refused for a host. -/
structure History (β : Type) where
  files : Files β
  refused : HostSignature → β → Prop

variable (lib : Library β) (spec : EngineSpec)

/-- The engine has a sidecar, which does not vouch for its bytes on this host. -/
def Refuses (fs : Files β) (host : HostSignature) (engine : β) : Prop :=
  fs.get spec.enginePath = some engine ∧
    ∃ sidecar, fs.get (metaPath spec.enginePath) = some sidecar ∧
      vouches lib host engine sidecar = false

/-- The call unpacks an archive with these members. -/
def Unpacks (fs : Files β) (call : Call β) (members : Files β) : Prop :=
  resolveLocal lib spec call.host false call.now fs = some none ∧
    ∃ info archive, fetchBundle lib spec call.host call.hub = .done info archive members

/-- The call unpacks an archive with these bytes in it. -/
def Delivers (fs : Files β) (call : Call β) (bytes : β) : Prop :=
  ∃ members, Unpacks lib spec fs call members ∧ ∃ member, members.get member = some bytes

/-- What has been refused, up to this call. -/
def History.refusedBy (h : History β) (call : Call β) (bytes : β) : Prop :=
  h.refused call.host bytes ∨ Refuses lib spec h.files call.host bytes

/-- A call. -/
def History.step (h : History β) (call : Call β) : History β where
  files := (resolveOne lib spec call.host false call.hub call.now h.files).1
  refused host bytes :=
    (h.refused host bytes ∨ host = call.host ∧ Refuses lib spec h.files host bytes) ∧
      ¬ (host = call.host ∧ Delivers lib spec h.files call bytes)

/-- Before the first call. -/
def History.start (fs : Files β) : History β := { files := fs, refused := fun _ _ => False }

/-- What the call returns with has not been refused for its host. -/
def ReturnsUnrefused (h : History β) (call : Call β) : Prop :=
  (resolveOne lib spec call.host false call.hub call.now h.files).2 = true →
    ∀ bytes, (h.step lib spec call).files.get spec.enginePath = some bytes →
      ¬ (h.step lib spec call).refused call.host bytes

/-- No call returns over bytes that are refused for its host. -/
def StaysRefused (h : History β) : List (Call β) → Prop
  | [] => True
  | call :: rest =>
    ReturnsUnrefused lib spec h call ∧ StaysRefused (h.step lib spec call) rest

/-- The call adopts no refused bytes for want of a sidecar, and unpacks no archive over refused
bytes that it does not hold, nor one that holds the sidecar. -/
structure Settles (h : History β) (call : Call β) : Prop where
  adopts (hmeta : h.files.get (metaPath spec.enginePath) = none)
    (hstrict : spec.requirePublishedIntegrity = false)
    (hextra : extraFilesExist h.files spec = true) (bytes : β)
    (hbytes : h.files.get spec.enginePath = some bytes) (hsize : lib.size bytes ≠ 0) :
    ¬ h.refused call.host bytes
  unpacks (members : Files β) (hunpacks : Unpacks lib spec h.files call members) :
    (∀ engine : Path, isEngineFile engine.name = true → spec.enginePath ≠ metaPath engine) ∧
    (∀ member bytes, members.get member = some bytes →
      placed spec.enginePath.dir member ≠ metaPath spec.enginePath) ∧
    let after := extract spec.enginePath.dir members (h.files.erase (metaPath spec.enginePath))
    ∀ bytes, after.get spec.enginePath = some bytes → extraFilesExist after spec = true →
      h.refusedBy lib spec call bytes → ∃ member, members.get member = some bytes

/-- Every call of the run is one. -/
def Settled (h : History β) : List (Call β) → Prop
  | [] => True
  | call :: rest => Settles lib spec h call ∧ Settled (h.step lib spec call) rest

/-- No sidecar vouches for what has been refused. -/
def Remembers (h : History β) : Prop :=
  ∀ host bytes sidecar, h.refused host bytes → h.files.get spec.enginePath = some bytes →
    h.files.get (metaPath spec.enginePath) = some sidecar →
    vouches lib host bytes sidecar = false

variable {lib spec} {h : History β} {call : Call β}

/-- Where the local engine is accepted its bytes have not been refused for the host. -/
theorem not_refusedBy_of_accepted {engine : β} {after : Files β} (hinv : Remembers lib spec h)
    (hsettles : Settles lib spec h call) (hextra : extraFilesExist h.files spec = true)
    (hengine : h.files.get spec.enginePath = some engine)
    (haccepted : Accepted lib spec call.host call.now h.files engine after) :
    ¬ h.refusedBy lib spec call engine := by
  cases hmeta : h.files.get (metaPath spec.enginePath) with
  | none =>
    rintro (hrefused | ⟨-, sidecar, hsidecar, -⟩)
    · cases haccepted with
      | unmarked _ hsize hstrict =>
        exact hsettles.adopts hmeta hstrict hextra _ hengine hsize hrefused
      | fresh _ _ hmeta' => cases hmeta.symm.trans hmeta'
      | legacy _ _ hmeta' => cases hmeta.symm.trans hmeta'
    · cases hmeta.symm.trans hsidecar
  | some sidecar =>
    have hvouches := haccepted.vouches hmeta
    rintro (hrefused | ⟨-, other, hother, hnot⟩)
    · have := hinv _ _ _ hrefused hengine hmeta
      rw [hvouches] at this
      cases this
    · cases hmeta.symm.trans hother
      rw [hvouches] at hnot
      cases hnot

/-- A call that raises over the sidecar leaves it. -/
theorem Remembers.step_of_raised (hinv : Remembers lib spec h)
    (hlocal : resolveLocal lib spec call.host false call.now h.files = none) :
    Remembers lib spec (h.step lib spec call) ∧ ReturnsUnrefused lib spec h call := by
  have hone : resolveOne lib spec call.host false call.hub call.now h.files = (h.files, false) := by
    rw [resolveOne, hlocal]
  have hfiles : (h.step lib spec call).files = h.files := by rw [History.step, hone]
  refine ⟨?_, fun htrue => ?_⟩
  · intro host bytes sidecar hrefused hbytes hsidecar
    rw [hfiles] at hbytes hsidecar
    rcases hrefused.1 with hbefore | ⟨-, -, other, hother, hnot⟩
    · exact hinv _ _ _ hbefore hbytes hsidecar
    · cases hsidecar.symm.trans hother
      exact hnot
  · rw [hone] at htrue
    cases htrue

/-- A call that accepts the local engine leaves its sidecar or writes one for the host. -/
theorem Remembers.step_of_accepted {after : Files β} (hinv : Remembers lib spec h)
    (hsettles : Settles lib spec h call)
    (hlocal : resolveLocal lib spec call.host false call.now h.files = some (some after)) :
    Remembers lib spec (h.step lib spec call) ∧ ReturnsUnrefused lib spec h call := by
  have hone : resolveOne lib spec call.host false call.hub call.now h.files = (after, true) := by
    rw [resolveOne, hlocal]
  have hfiles : (h.step lib spec call).files = after := by rw [History.step, hone]
  obtain ⟨-, hextra, engine, hengine, haccepted⟩ := accepted_of_resolveLocal hlocal
  have hnot := not_refusedBy_of_accepted hinv hsettles hextra hengine haccepted
  have hafter : after.get spec.enginePath = some engine := by
    rcases haccepted.files with rfl | ⟨onnx, rfl⟩
    · exact hengine
    · rw [get_writeMeta_of_ne (metaPath_ne _).symm, hengine]
  -- what is refused for the host of the call is not what it accepts
  have hother : ∀ host bytes, (h.step lib spec call).refused host bytes →
      after.get spec.enginePath = some bytes → host ≠ call.host := by
    rintro host bytes ⟨hrefused, -⟩ hbytes rfl
    cases hafter.symm.trans hbytes
    exact hnot (hrefused.imp_right And.right)
  refine ⟨?_, fun _ bytes hbytes hrefused => ?_⟩
  · intro host bytes sidecar hrefused hbytes hsidecar
    rw [hfiles] at hbytes hsidecar
    have hne := hother host bytes hrefused hbytes
    cases hafter.symm.trans hbytes
    rcases haccepted.files with rfl | ⟨onnx, rfl⟩
    · have hbefore := hrefused.1.resolve_right fun hnow => hne hnow.1
      exact hinv _ _ _ hbefore hengine hsidecar
    · rw [get_writeMeta_self hengine, Option.some.injEq] at hsidecar
      subst hsidecar
      rw [Bool.eq_false_iff, ne_eq, vouches_metaOf]
      exact fun hvouches => hne hvouches.1.symm
  · rw [hfiles] at hbytes
    exact hother call.host bytes hrefused hbytes rfl

/-- A call that goes on to the hub has removed the sidecar; an archive brings one for what it
brings. -/
theorem Remembers.step_of_hub (hsettles : Settles lib spec h call)
    (hlocal : resolveLocal lib spec call.host false call.now h.files = some none) :
    Remembers lib spec (h.step lib spec call) ∧ ReturnsUnrefused lib spec h call := by
  let erased := h.files.erase (metaPath spec.enginePath)
  have herased : erased.get (metaPath spec.enginePath) = none := Dictionary.get_erase_self _
  have hone : resolveOne lib spec call.host false call.hub call.now h.files =
      tryHfResolve lib spec call.host call.hub call.now erased := by
    rw [resolveOne, hlocal]
  have hnothing (htry : tryHfResolve lib spec call.host call.hub call.now erased =
      (erased, false)) :
      Remembers lib spec (h.step lib spec call) ∧ ReturnsUnrefused lib spec h call := by
    have hfiles : (h.step lib spec call).files = erased := by rw [History.step, hone, htry]
    refine ⟨fun host bytes sidecar _ _ hsidecar => ?_, fun htrue => ?_⟩
    · rw [hfiles] at hsidecar
      cases herased.symm.trans hsidecar
    · rw [hone, htry] at htrue
      cases htrue
  cases hfetch : fetchBundle lib spec call.host call.hub with
  | raised => exact hnothing (by rw [tryHfResolve, hfetch])
  | failed => exact hnothing (by rw [tryHfResolve, hfetch])
  | done info archive members =>
    have htry : tryHfResolve lib spec call.host call.hub call.now erased =
        unpackBundle lib spec call.host call.now info members erased := by
      rw [tryHfResolve, hfetch]
    have hfiles : (h.step lib spec call).files =
        (unpackBundle lib spec call.host call.now info members erased).1 := by
      rw [History.step, hone, htry]
    have hunpacks : Unpacks lib spec h.files call members := ⟨hlocal, info, archive, hfetch⟩
    obtain ⟨hnames, hnosidecar, hbrings⟩ := hsettles.unpacks members hunpacks
    have hengine : (unpackBundle lib spec call.host call.now info members erased).1.get
        spec.enginePath = (extract spec.enginePath.dir members erased).get spec.enginePath :=
      get_unpackBundle hnames
    -- where the bundle serves, what is refused for the host is not the engine
    have hother : ∀ bytes,
        (unpackBundle lib spec call.host call.now info members erased).2 = true →
        (extract spec.enginePath.dir members erased).get spec.enginePath = some bytes →
        ¬ (h.step lib spec call).refused call.host bytes := by
      rintro bytes htrue hbytes ⟨hrefused, hdelivers⟩
      have hextra := (unpackBundle_eq_true_iff.mp htrue).2
      exact hdelivers ⟨rfl, members, hunpacks,
        hbrings bytes hbytes hextra (hrefused.imp_right And.right)⟩
    refine ⟨?_, ?_⟩
    · intro host bytes sidecar hrefused hbytes hsidecar
      rw [hfiles] at hbytes hsidecar
      rw [hengine] at hbytes
      rcases get_unpackBundle_metaPath lib erased call.host call.now spec info members
        spec.enginePath with
        hkept | ⟨engine, onnx, htrue, -, -, hextracted, hwritten⟩
      · rw [hkept] at hsidecar
        rcases get_extract.mp hsidecar with ⟨member, heq, hmember⟩ | ⟨hbefore, -⟩
        · exact absurd heq.symm (hnosidecar member _ hmember)
        · cases herased.symm.trans hbefore
      · cases hextracted.symm.trans hbytes
        cases hwritten.symm.trans hsidecar
        rw [Bool.eq_false_iff, ne_eq, vouches_metaOf]
        rintro ⟨rfl, -⟩
        exact hother _ htrue hextracted hrefused
    · intro htrue bytes hbytes
      rw [hone, htry] at htrue
      rw [hfiles, hengine] at hbytes
      exact hother bytes htrue hbytes

/-- **One call.** After a call that takes neither branch no sidecar vouches for what has been
refused, and it has not returned over bytes refused for its host. -/
theorem Remembers.step (hinv : Remembers lib spec h) (hsettles : Settles lib spec h call) :
    Remembers lib spec (h.step lib spec call) ∧ ReturnsUnrefused lib spec h call := by
  cases hlocal : resolveLocal lib spec call.host false call.now h.files with
  | none => exact hinv.step_of_raised hlocal
  | some accepted =>
    cases accepted with
    | some after => exact hinv.step_of_accepted hsettles hlocal
    | none => exact Remembers.step_of_hub hsettles hlocal

/-- Along such a run nothing that has been refused comes back. -/
theorem Remembers.run (hinv : Remembers lib spec h) {calls : List (Call β)}
    (hsettled : Settled lib spec h calls) : StaysRefused lib spec h calls := by
  induction calls generalizing h with
  | nil => trivial
  | cons call rest ih =>
    obtain ⟨hafter, hreturns⟩ := hinv.step hsettled.1
    exact ⟨hreturns, ih hafter hsettled.2⟩

/-- **An engine once refused stays refused**, in every run whose calls adopt no refused engine for
want of its sidecar and unpack no bundle over one. -/
theorem staysRefused_of_settled (lib : Library β) (spec : EngineSpec) (start : Files β)
    (calls : List (Call β)) (hsettled : Settled lib spec (.start start) calls) :
    StaysRefused lib spec (.start start) calls :=
  Remembers.run (h := .start start) (fun _ _ _ hrefused => hrefused.elim) hsettled

/-! ### An offline device -/

/-- A device with TensorRT 10.3. -/
def orin : HostSignature :=
  { sm := "87", trtVersion := "10.3", jpVersion := "6.2", cudaVersion := "12.6"
    platform := "tegra" }

/-- The device after an update. -/
def orinUpdated : HostSignature := { orin with trtVersion := "10.4" }

/-- An engine with no extra files. -/
def xSpec : EngineSpec :=
  { modelId := "m", enginePath := ⟨["engines"], "x.engine"⟩, onnxPathCandidates := []
    extraFilePaths := [], requirePublishedIntegrity := false }

/-- A library whose bundle is empty. -/
def emptyBundle : Library Content := sampleLibrary (fun _ => "") .empty

/-- The engine of the device before the update. -/
def updatedFiles : Files Content where
  items := [(xSpec.enginePath, .engine "a"), (metaPath xSpec.enginePath,
    emptyBundle.dumps (metaOf emptyBundle (.engine "a") orin "hf_bundle" .none 0 .none .none))]
  nodup := by decide

/-- A call with the hub out of reach. -/
def offline (host : HostSignature) : Call Content :=
  { host := host, hub := { manifest := none, archive := fun _ => none }, now := 1 }

theorem not_delivers_offline (fs : Files Content) (host : HostSignature) (bytes : Content) :
    ¬ Delivers emptyBundle xSpec fs (offline host) bytes := by
  rintro ⟨members, ⟨-, info, archive, hfetch⟩, -⟩
  cases hfetch

/-- The first start after the update refuses the engine and removes its sidecar, the second one
adopts it. -/
theorem second_start_adopts :
    ¬ ∀ start calls, StaysRefused emptyBundle xSpec (.start start) calls := by
  intro hall
  obtain ⟨-, hsecond, -⟩ := hall updatedFiles [offline orinUpdated, offline orinUpdated]
  refine hsecond (by decide +kernel) (.engine "a") (by decide +kernel)
    ⟨.inl ⟨.inr ?_, ?_⟩, ?_⟩
  · exact ⟨rfl, by decide +kernel, _, rfl, by decide +kernel⟩
  · exact fun h => not_delivers_offline _ _ _ h.2
  · exact fun h => not_delivers_offline _ _ _ h.2

/-- Where the device is set back in between, the engine may be adopted for what it was. -/
theorem set_back_stays_refused :
    StaysRefused emptyBundle xSpec (.start updatedFiles) [offline orinUpdated, offline orin] := by
  have hunpacks : ∀ (h : History Content) (host : HostSignature) (members : Files Content),
      ¬ Unpacks emptyBundle xSpec h.files (offline host) members := by
    rintro h host members ⟨-, info, archive, hfetch⟩
    cases hfetch
  refine staysRefused_of_settled emptyBundle xSpec updatedFiles _ ⟨⟨?_, ?_⟩, ⟨?_, ?_⟩, trivial⟩
  · exact fun _ _ _ _ _ _ h => h
  · exact fun members h => absurd h (hunpacks _ _ members)
  · rintro - - - bytes - - ⟨h | ⟨h, -⟩, -⟩
    · exact h
    · exact absurd h (by decide)
  · exact fun members h => absurd h (hunpacks _ _ members)

end OpenVoiceStream.EngineResolver
