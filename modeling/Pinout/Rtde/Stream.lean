import Pinout.Rtde.Client

/-! # The RTDE stream

A client whose handshake is complete, and a controller that packs its data packages by the recipe it
acknowledged: what readers get is what the packages of the recipe carry, in order, whatever other
packages come between them and however the bytes are cut. The client stands for a bounded mailbox
(`UrRtdeClient.mailbox`); what reaches it, and when, is said by `replay`. -/

namespace Pinout.Rtde

open Foundation

/-! ## What a controller sends -/

/-- An output recipe as the controller acknowledged it: a type for each output. -/
structure Recipe where
  outputs : List JsString
  types : List RtdeValueType
  recipeId : UInt8
  length_eq : types.length = outputs.length

/-- A package of a controller: the values of the recipe, a data package of another recipe, or a
reply. -/
inductive Package
  | data (values : List RtdeDatum)
  | other (recipeId : UInt8) (body : List UInt8)
  | reply (frame : RtdeFrame)

namespace Package

variable (recipe : Recipe)

def frame : Package → RtdeFrame
  | data values => ⟨RtdeCommand.dataPackage, recipe.recipeId :: values.flatMap RtdeDatum.bytes⟩
  | other recipeId body => ⟨RtdeCommand.dataPackage, recipeId :: body⟩
  | reply frame => frame

def bytes (p : Package) : List UInt8 := (p.frame recipe).bytes

/-- The values that a package of the recipe carries. -/
def values? : Package → Option (List RtdeValue)
  | data values => some (values.map RtdeDatum.value)
  | _ => none

/-- A package fits its frame, has the types of the recipe when it is one of its packages, and another
recipe id, or another command, when it is not. -/
def WellFormed (p : Package) : Prop :=
  (p.frame recipe).Fits ∧ match p with
    | data values => values.map RtdeDatum.type = recipe.types
    | other recipeId _ => recipeId ≠ recipe.recipeId
    | reply frame => frame.command ≠ RtdeCommand.dataPackage

end Package

/-- The sample that the values of a recipe make. -/
def Recipe.sample (recipe : Recipe) (now : Int) (values : List RtdeValue) : UrRtdeSample :=
  makeSample now recipe.recipeId recipe.outputs recipe.types values

/-- A property that is assigned once more later is not looked up here. -/
theorem get?_foldl_insert_of_not_mem {ν : Type} {names : List JsString} {values : List ν}
    {m : InsertionMap JsString ν} {name : JsString} (h : name ∉ names) :
    ((names.zip values).foldl (fun m e => m.insert e.1 e.2) m).get? name = m.get? name := by
  induction names generalizing values m with
  | nil => rfl
  | cons other names ih =>
    cases values with
    | nil => rfl
    | cons v values =>
      have hne : name ≠ other := fun heq => h (heq ▸ List.mem_cons_self)
      rw [List.zip_cons_cons, List.foldl_cons, ih fun hm => h (List.mem_cons_of_mem other hm),
        m.get?_insert_of_ne v hne]

/-- **A property has the last value assigned to it.** -/
theorem get?_record {ν : Type} {names : List JsString} {values : List ν} {name : JsString} {v : ν}
    {i : Nat} (hname : names[i]? = some name) (hlast : name ∉ names.drop (i + 1))
    (hv : values[i]? = some v) : (record names values).get? name = some v := by
  have hgeneral : ∀ m : InsertionMap JsString ν,
      ((names.zip values).foldl (fun m e => m.insert e.1 e.2) m).get? name = some v := by
    induction names generalizing values i with
    | nil => cases hname
    | cons other names ih =>
      cases values with
      | nil => cases hv
      | cons w values =>
        intro m
        rw [List.zip_cons_cons, List.foldl_cons]
        cases i with
        | zero =>
          obtain rfl := Option.some.inj hname
          obtain rfl := Option.some.inj hv
          have hlater : other ∉ names := hlast
          rw [get?_foldl_insert_of_not_mem hlater, m.get?_insert_self]
        | succ i => exact ih hname hlast hv _
  exact hgeneral _

namespace UrRtdeClient

/-! ## The mailbox of a client -/

def mailbox (c : UrRtdeClient) : Mailbox Nat UrRtdeSample where
  capacity := c.sampleBacklog
  unread := c.samples
  readers := c.sampleWaiters
  fates := c.fates

structure Link where
  outputs : List JsString
  transportClosed : Bool
  closed : Bool
  consuming : Bool
  handshakeComplete : Bool
  pending : List UInt8
  recipeId : UInt8
  types : List RtdeValueType
  calls : Nat

def link (c : UrRtdeClient) : Link :=
  ⟨c.outputs, c.transportClosed, c.closed, c.consuming, c.handshakeComplete, c.pending, c.recipeId,
    c.types, c.calls⟩

theorem mailbox_trimBacklog (c : UrRtdeClient) (now : Int) (samples : List UrRtdeSample) :
    (c.trimBacklog now samples).mailbox = c.mailbox.keepNewest samples ∧
      (c.trimBacklog now samples).link = c.link := by
  induction samples generalizing c with
  | nil => simp [trimBacklog, Mailbox.keepNewest, mailbox, link]
  | cons sample samples ih =>
    rw [trimBacklog]
    split
    · next hover =>
      obtain ⟨hmailbox, hlink⟩ := ih ({ c with fates := c.fates ++ [(Fate.dropped, sample)] }.diagnostic
        now (js "UR_RTDE_SAMPLE_BACKLOG_OVERFLOW")
        (js "Unread RTDE sample backlog exceeded its bound; the oldest sample was dropped."))
      refine ⟨hmailbox.trans ?_, hlink⟩
      -- one more than the backlog allows: the oldest goes, and the rest is trimmed
      have hsub : (sample :: samples).length - c.sampleBacklog =
          (samples.length - c.sampleBacklog) + 1 := by
        rw [List.length_cons] at hover ⊢
        omega
      simp only [Mailbox.keepNewest, mailbox, diagnostic, hsub, List.drop_succ_cons,
        List.take_succ_cons, List.map_cons, List.append_assoc, List.singleton_append]
    · next hfits =>
      refine ⟨?_, rfl⟩
      rw [Mailbox.keepNewest_of_le (Nat.not_lt.mp hfits)]
      rfl

theorem mailbox_deliver (c : UrRtdeClient) (now : Int) (sample : UrRtdeSample) :
    (c.deliver now sample).mailbox = c.mailbox.step (.arrive sample) ∧
      (c.deliver now sample).link = c.link := by
  rw [deliver, Mailbox.step]
  split
  · next waiter waiters hwaiters =>
    simp only [mailbox, hwaiters]
    exact ⟨trivial, rfl⟩
  · next hwaiters =>
    obtain ⟨hmailbox, hlink⟩ := c.mailbox_trimBacklog now (c.samples ++ [sample])
    refine ⟨hmailbox.trans ?_, hlink⟩
    simp only [mailbox, hwaiters]

theorem mailbox_handleFrame_of_reply {c : UrRtdeClient} {frame : RtdeFrame} (now : Int)
    (h : frame.command ≠ RtdeCommand.dataPackage) :
    (handleFrame now c frame).mailbox = c.mailbox ∧ (handleFrame now c frame).link = c.link := by
  rw [handleFrame, if_neg h]
  split
  · exact ⟨rfl, rfl⟩
  · rw [queueFrame]
    split <;> exact ⟨rfl, rfl⟩

theorem link_handleFrame (now : Int) (c : UrRtdeClient) (frame : RtdeFrame) :
    (handleFrame now c frame).link = c.link := by
  by_cases h : frame.command = RtdeCommand.dataPackage
  · rw [handleFrame, if_pos h, handleDataPackage]
    split
    · rfl
    · split
      · rfl
      · split
        · rfl
        · exact (c.mailbox_deliver now _).2
  · exact (mailbox_handleFrame_of_reply now h).2

theorem link_foldl_handleFrame (now : Int) (frames : List RtdeFrame) (c : UrRtdeClient) :
    (frames.foldl (handleFrame now) c).link = c.link := by
  induction frames generalizing c with
  | nil => rfl
  | cons frame frames ih => rw [List.foldl_cons, ih, link_handleFrame]

/-! ## Packages -/

def Follows (c : UrRtdeClient) (recipe : Recipe) : Prop :=
  c.outputs = recipe.outputs ∧ c.recipeId = recipe.recipeId ∧ c.types = recipe.types ∧
    c.handshakeComplete = true

def arrivalsOf (recipe : Recipe) (now : Int) (group : List (List RtdeValue)) :
    List (MailEvent Nat UrRtdeSample) :=
  group.map fun values => .arrive (recipe.sample now values)

/-- **A package makes its values arrive**, when it is one of the recipe, and nothing else. -/
theorem mailbox_handleFrame {c : UrRtdeClient} {recipe : Recipe} (hc : c.Follows recipe) (now : Int)
    {p : Package} (hp : p.WellFormed recipe) :
    (handleFrame now c (p.frame recipe)).mailbox =
      c.mailbox.run (arrivalsOf recipe now p.values?.toList) := by
  obtain ⟨houtputs, hid, htypes, -⟩ := hc
  cases p with
  | data values =>
    obtain ⟨-, hvalues⟩ := hp
    have hdecode : decodeDataPackage (recipe.recipeId :: values.flatMap RtdeDatum.bytes) c.types =
        .ok ⟨recipe.recipeId, values.map RtdeDatum.value⟩ := by
      rw [htypes, ← hvalues, decodeDataPackage_packed]
    have hlength : (values.map RtdeDatum.value).length = c.outputs.length := by
      rw [houtputs, ← recipe.length_eq, ← hvalues, List.length_map, List.length_map]
    rw [handleFrame, Package.frame, if_pos rfl, handleDataPackage]
    simp only [hdecode]
    rw [if_neg (not_not.mpr hid.symm), if_neg (not_not.mpr hlength), (c.mailbox_deliver now _).1,
      houtputs, htypes]
    rfl
  | other recipeId body =>
    obtain ⟨-, hne⟩ := hp
    rw [handleFrame, Package.frame, if_pos rfl, handleDataPackage]
    split
    · rfl
    · next decoded hdecoded =>
      obtain rfl : recipeId = decoded.recipeId :=
        Option.some.inj (recipeId_of_decodeDataPackage hdecoded)
      rw [if_pos (hid ▸ hne)]
      rfl
  | reply frame => exact (mailbox_handleFrame_of_reply now hp.2).1

theorem Follows.of_link {c d : UrRtdeClient} {recipe : Recipe} (h : c.Follows recipe)
    (hlink : d.link = c.link) : d.Follows recipe := by
  simp only [link, Link.mk.injEq] at hlink
  obtain ⟨houtputs, -, -, -, hhandshake, -, hid, htypes, -⟩ := hlink
  simpa only [Follows, houtputs, hid, htypes, hhandshake] using h

theorem mailbox_foldl_handleFrame {recipe : Recipe} (now : Int) {packages : List Package}
    (hpackages : ∀ p ∈ packages, p.WellFormed recipe) {c : UrRtdeClient} (hc : c.Follows recipe) :
    ((packages.map (Package.frame recipe)).foldl (handleFrame now) c).mailbox =
      c.mailbox.run (arrivalsOf recipe now (packages.filterMap Package.values?)) := by
  induction packages generalizing c with
  | nil => rfl
  | cons p packages ih =>
    have hp := hpackages p List.mem_cons_self
    rw [List.map_cons, List.foldl_cons,
      ih (fun q hq => hpackages q (List.mem_cons_of_mem p hq)) (hc.of_link (link_handleFrame now c _)),
      mailbox_handleFrame hc now hp, ← Mailbox.run_append, arrivalsOf, arrivalsOf, arrivalsOf,
      ← List.map_append]
    cases hvalues : p.values? with
    | none => rw [List.filterMap_cons_none hvalues]; rfl
    | some values => rw [List.filterMap_cons_some hvalues]; rfl

/-! ## Actions -/

def received (actions : List Action) : List UInt8 := actions.flatMap fun
  | .chunk _ bytes => bytes
  | _ => []

/-- What an action makes happen to the mailbox, when `group` is what the packages that it completes
carry. Only a chunk completes packages. -/
def mailEvents (recipe : Recipe) (c : UrRtdeClient) (group : List (List RtdeValue)) :
    Action → List (MailEvent Nat UrRtdeSample)
  | .chunk now _ => arrivalsOf recipe now group
  | .readSample timeoutMs _ =>
    if c.isConnectionClosed = true ∨ (c.samples = [] ∧ validTimeout timeoutMs = false) then []
    else [.read c.calls]
  | .sampleTimeout reader _ => [.leave reader]
  | .discardBufferedSamples => [.clear]
  | .close | .endOfStream => if c.closed then [] else c.sampleWaiters.map .leave
  | _ => []

def Action.isChunk : Action → Bool
  | .chunk _ _ => true
  | _ => false

theorem arrivals_mailEvents (recipe : Recipe) (c : UrRtdeClient) {group : List (List RtdeValue)}
    {a : Action} (h : a.isChunk = true ∨ group = []) :
    (Mailbox.arrivals (mailEvents recipe c group a)).map UrRtdeSample.values =
      group.map (record recipe.outputs) := by
  have hleave : ∀ readers : List Nat,
      Mailbox.arrivals (readers.map (MailEvent.leave (τ := UrRtdeSample))) = [] := by
    intro readers
    rw [Mailbox.arrivals, List.filterMap_map]
    exact List.filterMap_eq_nil_iff.mpr fun _ _ => rfl
  cases hchunk : a.isChunk with
  | true =>
    cases a with
    | chunk now bytes =>
      rw [mailEvents, arrivalsOf, Mailbox.arrivals, List.filterMap_map, List.map_filterMap]
      exact congrFun (List.filterMap_eq_map (f := record recipe.outputs)) group
    | _ => cases hchunk
  | false =>
    obtain rfl : group = [] := h.resolve_left (by rw [hchunk]; exact Bool.false_ne_true)
    cases a with
    | chunk now bytes => cases hchunk
    | readSample timeoutMs timeoutText => rw [mailEvents]; split <;> rfl
    | close | endOfStream =>
      rw [mailEvents]
      split
      · rfl
      · rw [hleave]; rfl
    | _ => rfl

theorem run_leave (m : Mailbox Nat UrRtdeSample) :
    m.run (m.readers.map .leave) = { m with readers := [] } := by
  have hgeneral : ∀ readers : List Nat, ({ m with readers := readers } : Mailbox Nat UrRtdeSample).run
      (readers.map .leave) = { m with readers := [] } := by
    intro readers
    induction readers with
    | nil => rfl
    | cons reader readers ih =>
      rw [List.map_cons, Mailbox.run_cons]
      simpa [Mailbox.step] using ih
  exact hgeneral m.readers

theorem mailbox_rejectWaiters (c : UrRtdeClient) (error : Thrown) :
    (c.rejectWaiters error).mailbox = c.mailbox.run (c.sampleWaiters.map .leave) := by
  have h := run_leave c.mailbox
  exact h.symm

theorem mailbox_close (c : UrRtdeClient) :
    c.close.mailbox = c.mailbox.run (if c.closed then [] else c.sampleWaiters.map .leave) := by
  rw [close]
  split
  · rfl
  · exact mailbox_rejectWaiters _ _

/-- A client whose handshake is complete does not set up its outputs again. -/
theorem ne_setupOutputs {c c' : UrRtdeClient} {a : Action} (hc : c.handshakeComplete = true)
    (h : machine.step c a = some c') (awaited : Nat) : a ≠ .setupOutputs awaited := by
  rintro rfl
  simp only [machine, hc, Bool.true_eq_false, false_and, if_false] at h
  cases h

/-- What an action that neither receives bytes nor sets up the outputs leaves alone. -/
theorem fields_of_step {c c' : UrRtdeClient} {a : Action} (ha : a.isChunk = false)
    (hsetup : ∀ awaited, a ≠ .setupOutputs awaited) (h : machine.step c a = some c') :
    c'.outputs = c.outputs ∧ c'.recipeId = c.recipeId ∧ c'.types = c.types ∧
      c'.handshakeComplete = c.handshakeComplete ∧ c'.pending = c.pending := by
  cases a with
  | chunk now bytes => cases ha
  | setupOutputs awaited => exact absurd rfl (hsetup awaited)
  | awaitFrame command =>
    obtain rfl := Option.some.inj h
    rw [UrRtdeClient.awaitFrame]
    split
    · exact ⟨rfl, rfl, rfl, rfl, rfl⟩
    · split <;> exact ⟨rfl, rfl, rfl, rfl, rfl⟩
  | readSample timeoutMs timeoutText =>
    obtain rfl := Option.some.inj h
    rw [UrRtdeClient.readSample]
    split
    · exact ⟨rfl, rfl, rfl, rfl, rfl⟩
    · split
      · exact ⟨rfl, rfl, rfl, rfl, rfl⟩
      · split <;> exact ⟨rfl, rfl, rfl, rfl, rfl⟩
  | close =>
    obtain rfl := Option.some.inj h
    rw [UrRtdeClient.close]
    split <;> exact ⟨rfl, rfl, rfl, rfl, rfl⟩
  | endOfStream =>
    simp only [machine] at h
    split at h <;> cases h
    rw [UrRtdeClient.endOfStream]
    split <;> exact ⟨rfl, rfl, rfl, rfl, rfl⟩
  | discardBufferedSamples | transportClosed =>
    obtain rfl := Option.some.inj h
    exact ⟨rfl, rfl, rfl, rfl, rfl⟩
  | frameTimeout | sampleTimeout =>
    simp only [machine] at h
    split at h <;> cases h
    exact ⟨rfl, rfl, rfl, rfl, rfl⟩

/-- **An action that receives nothing** does to the mailbox what `mailEvents` says. -/
theorem mailbox_of_step (recipe : Recipe) {c c' : UrRtdeClient} {a : Action}
    (ha : a.isChunk = false) (hsetup : ∀ awaited, a ≠ .setupOutputs awaited)
    (h : machine.step c a = some c') : c'.mailbox = c.mailbox.run (mailEvents recipe c [] a) := by
  cases a with
  | chunk now bytes => cases ha
  | setupOutputs awaited => exact absurd rfl (hsetup awaited)
  | awaitFrame command =>
    obtain rfl := Option.some.inj h
    rw [UrRtdeClient.awaitFrame]
    split
    · rfl
    · split <;> rfl
  | readSample timeoutMs timeoutText =>
    obtain rfl := Option.some.inj h
    rw [UrRtdeClient.readSample, mailEvents]
    split
    · next hclosed =>
      rw [if_pos (Or.inl hclosed)]
      rfl
    · next hclosed =>
      split
      · next buffered samples hsamples =>
        rw [if_neg (by simp [hclosed, hsamples])]
        simp only [Mailbox.run_cons, Mailbox.run_nil, Mailbox.step, mailbox, hsamples]
      · next hsamples =>
        split
        · next hvalid =>
          rw [if_neg (by simp [hclosed, hvalid])]
          simp only [Mailbox.run_cons, Mailbox.run_nil, Mailbox.step, mailbox, hsamples]
        · next hvalid =>
          rw [if_pos (Or.inr ⟨hsamples, by simpa using hvalid⟩)]
          rfl
  | close =>
    obtain rfl := Option.some.inj h
    exact c.mailbox_close
  | endOfStream =>
    simp only [machine] at h
    split at h <;> cases h
    rw [UrRtdeClient.endOfStream, mailEvents]
    split
    · rfl
    · exact mailbox_rejectWaiters _ _
  | discardBufferedSamples | transportClosed =>
    obtain rfl := Option.some.inj h
    rfl
  | frameTimeout | sampleTimeout =>
    simp only [machine] at h
    split at h <;> cases h
    rfl

theorem flatMap_bytes_frame (recipe : Recipe) (packages : List Package) :
    (packages.map (Package.frame recipe)).flatMap RtdeFrame.bytes =
      packages.flatMap (Package.bytes recipe) := by
  rw [List.flatMap_map]
  rfl

/-- **A chunk** completes the first packages of the stream, makes what they carry arrive, and leaves
the beginning of the others pending. -/
theorem step_chunk {recipe : Recipe} {packages : List Package}
    (hpackages : ∀ p ∈ packages, p.WellFormed recipe) {c c' : UrRtdeClient} {now : Int}
    {bytes : List UInt8} (hc : c.Follows recipe) (h : machine.step c (.chunk now bytes) = some c')
    (hbytes : c.pending ++ bytes <+: packages.flatMap (Package.bytes recipe)) :
    ∃ done rest, packages = done ++ rest ∧
      c.pending ++ bytes = done.flatMap (Package.bytes recipe) ++ c'.pending ∧
      c'.mailbox =
        c.mailbox.run (mailEvents recipe c (done.filterMap Package.values?) (.chunk now bytes)) ∧
      c'.Follows recipe ∧ tryDecodeRtdeFrame c'.pending = .incomplete := by
  have hframes : ∀ frame ∈ packages.map (Package.frame recipe),
      rtdeDecoder.Recognises RtdeFrame.bytes id frame := by
    intro frame hframe
    obtain ⟨p, hp, rfl⟩ := List.mem_map.mp hframe
    exact RtdeFrame.recognised (hpackages p hp).1
  rw [← flatMap_bytes_frame] at hbytes
  obtain ⟨doneFrames, restFrames, hsplit, hdone, hfailure, hcut⟩ :=
    PacketDecoder.drain_of_prefix hframes hbytes
  rw [List.map_id] at hdone
  obtain ⟨done, rest, rfl, rfl, rfl⟩ := List.map_eq_append_iff.mp hsplit
  have hwait := rtdeDecoder.decode_rest (c.pending ++ bytes)
  simp only [hfailure] at hwait
  simp only [machine] at h
  split at h
  · obtain rfl := Option.some.inj h
    obtain ⟨cut, hcutoff⟩ : ∃ cut : UrRtdeClient,
        cut = { c with pending := (rtdeDecoder.drain (c.pending ++ bytes)).rest } := ⟨_, rfl⟩
    have hreceive : c.receive now bytes =
        (done.map (Package.frame recipe)).foldl (handleFrame now) cut := by
      simp only [receive, hfailure, hdone, hcutoff]
    have hlink := link_foldl_handleFrame now (done.map (Package.frame recipe)) cut
    have hfollows : cut.Follows recipe := hcutoff ▸ hc
    have hpending : (c.receive now bytes).pending = (rtdeDecoder.drain (c.pending ++ bytes)).rest := by
      have h := congrArg Link.pending hlink
      rw [hreceive]
      exact h.trans (congrArg pending hcutoff)
    refine ⟨done, rest, rfl, ?_, ?_, ?_, ?_⟩
    · rw [hpending, ← flatMap_bytes_frame]
      exact hcut
    · rw [hreceive, mailbox_foldl_handleFrame now
        (fun p hp => hpackages p (List.mem_append_left rest hp)) hfollows, hcutoff]
      rfl
    · rw [hreceive]
      exact hfollows.of_link hlink
    · rw [hpending]
      exact hwait
  · cases h

/-! ## Runs -/

/-- What a run makes happen to the mailbox, when `groups` is what the packages that its actions
complete carry. -/
def replay (recipe : Recipe) :
    UrRtdeClient → List Action → List (List (List RtdeValue)) → List (MailEvent Nat UrRtdeSample)
  | c, a :: actions, group :: groups =>
    mailEvents recipe c group a ++ match machine.step c a with
      | some c' => replay recipe c' actions groups
      | none => []
  | _, _, _ => []

/-- **A run** completes the first packages of the stream, and does to the mailbox what `replay` says. -/
theorem run_replay {recipe : Recipe} {packages : List Package}
    (hpackages : ∀ p ∈ packages, p.WellFormed recipe) {c c' : UrRtdeClient} {actions : List Action}
    (hc : c.Follows recipe) (hwait : tryDecodeRtdeFrame c.pending = .incomplete)
    (hrun : machine.run c actions = some c')
    (hbytes : c.pending ++ received actions <+: packages.flatMap (Package.bytes recipe)) :
    ∃ done rest groups, packages = done ++ rest ∧
      c.pending ++ received actions = done.flatMap (Package.bytes recipe) ++ c'.pending ∧
      tryDecodeRtdeFrame c'.pending = .incomplete ∧
      groups.length = actions.length ∧ groups.flatten = done.filterMap Package.values? ∧
      c'.mailbox = c.mailbox.run (replay recipe c actions groups) ∧
      (Mailbox.arrivals (replay recipe c actions groups)).map UrRtdeSample.values =
        (done.filterMap Package.values?).map (record recipe.outputs) := by
  induction actions generalizing c packages with
  | nil =>
    obtain rfl : c = c' := by simpa using hrun
    exact ⟨[], packages, [], rfl, by simp [received], hwait, rfl, rfl, rfl, rfl⟩
  | cons a actions ih =>
    obtain ⟨m, hm, hrest⟩ := machine.run_cons_eq_some.mp hrun
    -- what one action completes, and what it leaves to the others
    have hreceived : received (a :: actions) = received [a] ++ received actions := by
      rw [received, received, received, ← List.flatMap_append]
      rfl
    rw [hreceived, ← List.append_assoc] at hbytes
    have hstep : ∃ done rest, packages = done ++ rest ∧
        c.pending ++ received [a] = done.flatMap (Package.bytes recipe) ++ m.pending ∧
        m.mailbox = c.mailbox.run (mailEvents recipe c (done.filterMap Package.values?) a) ∧
        m.Follows recipe ∧ tryDecodeRtdeFrame m.pending = .incomplete ∧
        (a.isChunk = true ∨ done.filterMap Package.values? = []) := by
      cases hchunk : a.isChunk with
      | true =>
        cases a with
        | chunk now bytes =>
          have hone : received [.chunk now bytes] = bytes := by simp [received]
          rw [hone] at hbytes ⊢
          obtain ⟨done, rest, hsplit, hcut, hmailbox, hfollows, hwait'⟩ :=
            step_chunk hpackages hc hm ((List.prefix_append _ _).trans hbytes)
          exact ⟨done, rest, hsplit, hcut, hmailbox, hfollows, hwait', Or.inl rfl⟩
        | _ => cases hchunk
      | false =>
        have hone : received [a] = [] := by cases a <;> first | rfl | cases hchunk
        have hsetup := ne_setupOutputs hc.2.2.2 hm
        obtain ⟨houtputs, hid, htypes, hhandshake, hpending⟩ := fields_of_step hchunk hsetup hm
        refine ⟨[], packages, rfl, ?_, mailbox_of_step recipe hchunk hsetup hm, ?_,
          hpending ▸ hwait, Or.inr rfl⟩
        · rw [hone, hpending, List.append_nil]
          rfl
        · simpa only [Follows, houtputs, hid, htypes, hhandshake] using hc
    obtain ⟨done, rest, rfl, hcut, hmailbox, hfollows, hwait', hgroup⟩ := hstep
    rw [hcut, List.append_assoc, List.flatMap_append, List.prefix_append_right_inj] at hbytes
    obtain ⟨later, rest', groups, rfl, hcut', hwait'', hlength, hgroups, hmailbox', harrivals⟩ :=
      ih (fun p hp => hpackages p (List.mem_append_right done hp)) hfollows hwait' hrest hbytes
    refine ⟨done ++ later, rest', done.filterMap Package.values? :: groups,
      (List.append_assoc _ _ _).symm, ?_, hwait'', ?_, ?_, ?_, ?_⟩
    · rw [hreceived, ← List.append_assoc, hcut, List.append_assoc, hcut', List.flatMap_append,
        List.append_assoc]
    · rw [List.length_cons, List.length_cons, hlength]
    · rw [List.flatten_cons, hgroups, List.filterMap_append]
    · rw [hmailbox', hmailbox, replay, hm, Mailbox.run_append]
    · rw [replay, hm, Mailbox.arrivals, List.filterMap_append, List.map_append,
        List.filterMap_append, List.map_append]
      exact congrArg₂ (· ++ ·) (arrivals_mailEvents recipe c hgroup) harrivals

/-! ## From the start -/

/-- What holds of every client: its outputs stay, no whole frame is left pending, and its mailbox is
sound. -/
structure Tidy (outputs : List JsString) (c : UrRtdeClient) : Prop where
  outputs : c.outputs = outputs
  waits : ∀ frame n, tryDecodeRtdeFrame c.pending ≠ .packet frame n
  sound : c.mailbox.Sound

theorem exists_mailbox_handleFrame (now : Int) (c : UrRtdeClient) (frame : RtdeFrame) :
    ∃ events, (handleFrame now c frame).mailbox = c.mailbox.run events := by
  by_cases h : frame.command = RtdeCommand.dataPackage
  · rw [handleFrame, if_pos h, handleDataPackage]
    split
    · exact ⟨[], rfl⟩
    · split
      · exact ⟨[], rfl⟩
      · split
        · exact ⟨[], rfl⟩
        · exact ⟨[.arrive _], (c.mailbox_deliver now _).1⟩
  · exact ⟨[], (mailbox_handleFrame_of_reply now h).1⟩

theorem sound_foldl_handleFrame (now : Int) (frames : List RtdeFrame) {c : UrRtdeClient}
    (hc : c.mailbox.Sound) : (frames.foldl (handleFrame now) c).mailbox.Sound := by
  induction frames generalizing c with
  | nil => exact hc
  | cons frame frames ih =>
    obtain ⟨events, hevents⟩ := exists_mailbox_handleFrame now c frame
    refine ih ?_
    rw [hevents]
    exact hc.run events

theorem sound_close {c : UrRtdeClient} (hc : c.mailbox.Sound) : c.close.mailbox.Sound := by
  rw [mailbox_close]
  exact hc.run _

theorem pending_close (c : UrRtdeClient) : c.close.pending = c.pending := by
  rw [close]
  split <;> rfl

theorem outputs_close (c : UrRtdeClient) : c.close.outputs = c.outputs := by
  rw [close]
  split <;> rfl

theorem pending_receive (c : UrRtdeClient) (now : Int) (bytes : List UInt8) :
    (c.receive now bytes).pending = (rtdeDecoder.drain (c.pending ++ bytes)).rest ∧
      (c.receive now bytes).outputs = c.outputs := by
  have hlink := link_foldl_handleFrame now
    (rtdeDecoder.drain (c.pending ++ bytes)).packets
    { c with pending := (rtdeDecoder.drain (c.pending ++ bytes)).rest }
  have hpending := congrArg Link.pending hlink
  have houtputs := congrArg Link.outputs hlink
  simp only [receive]
  split
  · exact ⟨hpending, houtputs⟩
  · exact ⟨(pending_close _).trans hpending, (outputs_close _).trans houtputs⟩

/-- A chunk keeps the mailbox sound, whatever its bytes are. -/
theorem sound_receive {c : UrRtdeClient} (hc : c.mailbox.Sound) (now : Int) (bytes : List UInt8) :
    (c.receive now bytes).mailbox.Sound := by
  have hhandled := sound_foldl_handleFrame now (rtdeDecoder.drain (c.pending ++ bytes)).packets
    (c := { c with pending := (rtdeDecoder.drain (c.pending ++ bytes)).rest }) hc
  simp only [receive]
  split
  · exact hhandled
  · exact sound_close (c := UrRtdeClient.diagnostic _ now _ _) hhandled

variable {outputs : List JsString}

/-- Setting up the outputs leaves alone what is pending, and keeps the mailbox sound. -/
theorem tidy_setupOutputs {c : UrRtdeClient} (hc : c.Tidy outputs) (payload : List UInt8) :
    (c.setupOutputs payload).Tidy outputs := by
  have hclose : c.close.Tidy outputs :=
    ⟨(outputs_close c).trans hc.outputs, pending_close c ▸ hc.waits, sound_close hc.sound⟩
  rw [UrRtdeClient.setupOutputs]
  split
  · exact ⟨hclose.outputs, hclose.waits, hclose.sound⟩
  · simp only
    split
    · exact ⟨hclose.outputs, hclose.waits, hclose.sound⟩
    · exact ⟨hc.outputs, hc.waits, hc.sound⟩

/-- **An action keeps a client tidy.** -/
theorem Tidy.step {c c' : UrRtdeClient} {a : Action} (hc : c.Tidy outputs)
    (h : machine.step c a = some c') : c'.Tidy outputs := by
  cases hchunk : a.isChunk with
  | true =>
    cases a with
    | chunk now bytes =>
      simp only [machine] at h
      split at h <;> cases h
      obtain ⟨hpending, houtputs⟩ := c.pending_receive now bytes
      refine ⟨houtputs.trans hc.outputs, fun frame n => ?_, sound_receive hc.sound now bytes⟩
      rw [hpending]
      exact rtdeDecoder.decode_rest_ne_packet _ frame n
    | _ => cases hchunk
  | false =>
    by_cases hsetup : ∃ awaited, a = .setupOutputs awaited
    · obtain ⟨awaited, rfl⟩ := hsetup
      simp only [machine] at h
      split at h
      · split at h
        · split at h <;> cases h
          exact tidy_setupOutputs hc _
        · cases h
      · cases h
    · have hne : ∀ awaited, a ≠ .setupOutputs awaited := fun awaited ha => hsetup ⟨awaited, ha⟩
      obtain ⟨houtputs, -, -, -, hpending⟩ := fields_of_step hchunk hne h
      refine ⟨houtputs.trans hc.outputs, hpending ▸ hc.waits, ?_⟩
      rw [mailbox_of_step ⟨[], [], 0, rfl⟩ hchunk hne h]
      exact hc.sound.run _

theorem tidy_create (outputs : List JsString) (sampleBacklog : Option Nat) :
    (create outputs sampleBacklog).Tidy outputs :=
  ⟨rfl, nofun, Nat.zero_le _, fun h => absurd rfl h⟩

/-- **A setup reply that gives each output a type** makes the client follow the recipe. -/
theorem follows_setupOutputs {recipe : Recipe} {c : UrRtdeClient} (hc : c.outputs = recipe.outputs) :
    (c.setupOutputs (setupReply recipe.recipeId (recipe.types.map some))).Follows recipe := by
  have hunknown : unknownOutputs c.outputs (recipe.types.map some) = [] := by
    refine List.filterMap_eq_nil_iff.mpr fun entry hentry => ?_
    obtain ⟨-, -, htype⟩ := List.mem_zipIdx (x := entry.1) (i := entry.2) (k := 0) hentry
    rw [htype, List.getElem_map]
  have htypes : (recipe.types.map some).reduceOption = recipe.types := by
    refine List.filterMap_map.trans ?_
    exact List.filterMap_some
  rw [UrRtdeClient.setupOutputs, decodeSetupOutputsReply_setupReply]
  simp only [hunknown, ne_eq, not_true_eq_false, if_false]
  exact ⟨hc, rfl, htypes, rfl⟩

/-- What reaches the mailbox of a client in a run that receives the beginning of a stream of packages:
what those of the recipe carry that have come to their end, in order. All of it is handed out, dropped
or cleared by the mailbox, or unread. -/
def Delivers (recipe : Recipe) (packages : List Package) (actions : List Action)
    (c c' : UrRtdeClient) : Prop :=
  ∃ done rest groups, packages = done ++ rest ∧
    c.pending ++ received actions = done.flatMap (Package.bytes recipe) ++ c'.pending ∧
    (∀ p ∈ rest.head?, ¬ p.bytes recipe <+: c'.pending) ∧
    groups.length = actions.length ∧ groups.flatten = done.filterMap Package.values? ∧
    c'.mailbox = c.mailbox.run (replay recipe c actions groups) ∧
    c'.mailbox.history.map UrRtdeSample.values = c.mailbox.history.map UrRtdeSample.values ++
      (done.filterMap Package.values?).map (record recipe.outputs)

/-- **The RTDE stream.** A frame is decoded as it was encoded, whatever follows it, and less of it is
incomplete. A client that has set up its outputs by a reply of the controller hands out, keeps and
drops what the packages of the recipe carry as a bounded mailbox does, in every run and however the
stream is cut; and the values and types of a sample stand under the names of the outputs. -/
theorem delivers_of_setup {recipe : Recipe} {sampleBacklog : Option Nat}
    {before actions : List Action} {awaited : Nat} {c₀ c c' : UrRtdeClient}
    {packages : List Package}
    (hbefore : machine.run (create recipe.outputs sampleBacklog) before = some c₀)
    (hreply : c₀.frameOf awaited =
      some ⟨RtdeCommand.setupOutputs, setupReply recipe.recipeId (recipe.types.map some)⟩)
    (hsetup : machine.step c₀ (.setupOutputs awaited) = some c)
    (hpackages : ∀ p ∈ packages, p.WellFormed recipe)
    (hrun : machine.run c actions = some c')
    (hbytes : c.pending ++ received actions <+: packages.flatMap (Package.bytes recipe)) :
    (∀ frame : RtdeFrame, frame.Fits → ∃ bytes, encodeRtdeFrame frame = .ok bytes ∧
      (∀ more, tryDecodeRtdeFrame (bytes ++ more) = .packet frame bytes.length) ∧
      ∀ l, l <+: bytes → l ≠ bytes → tryDecodeRtdeFrame l = .incomplete) ∧
    Delivers recipe packages actions c c' ∧ c'.mailbox.Sound ∧
    ∀ (now : Int) (values : List RtdeValue) (i : Nat) (name : JsString) (v : RtdeValue)
      (type : RtdeValueType), recipe.outputs[i]? = some name →
      name ∉ recipe.outputs.drop (i + 1) → values[i]? = some v → recipe.types[i]? = some type →
      (recipe.sample now values).values.get? name = some v ∧
        (recipe.sample now values).types.get? name = some type := by
  have htidy₀ : c₀.Tidy recipe.outputs :=
    Machine.run_invariant (fun _ _ _ h => Tidy.step h) (tidy_create _ _) hbefore
  have htidy : c.Tidy recipe.outputs := htidy₀.step hsetup
  have htidy' : c'.Tidy recipe.outputs :=
    Machine.run_invariant (fun _ _ _ h => Tidy.step h) htidy hrun
  have hfollows : c.Follows recipe := by
    simp only [machine, hreply, if_true] at hsetup
    split at hsetup <;> cases hsetup
    exact follows_setupOutputs htidy₀.outputs
  have hframes : ∀ frame ∈ packages.map (Package.frame recipe),
      rtdeDecoder.Recognises RtdeFrame.bytes id frame := by
    intro frame hframe
    obtain ⟨p, hp, rfl⟩ := List.mem_map.mp hframe
    exact RtdeFrame.recognised (hpackages p hp).1
  -- what is pending begins the stream, so that it is not a failure
  have hwait : tryDecodeRtdeFrame c.pending = .incomplete := by
    rw [← flatMap_bytes_frame] at hbytes
    cases hdecode : tryDecodeRtdeFrame c.pending with
    | incomplete => rfl
    | packet frame n => exact absurd hdecode (htidy.waits frame n)
    | failed e =>
      have hprefix := (List.prefix_append c.pending (received actions)).trans hbytes
      exact absurd hdecode (PacketDecoder.decode_ne_failed_of_prefix hframes hprefix e)
  refine ⟨fun frame hfits => ?_, ?_, htidy'.sound, ?_⟩
  · have hrecognised := RtdeFrame.recognised hfits
    exact ⟨frame.bytes, encodeRtdeFrame_eq_ok hfits, hrecognised.decode_append,
      fun l hl hne => hrecognised.decode_prefix hl hne⟩
  · obtain ⟨done, rest, groups, rfl, hcut, hwait', hlength, hgroups, hmailbox, harrivals⟩ :=
      run_replay hpackages hfollows hwait hrun hbytes
    refine ⟨done, rest, groups, rfl, hcut, fun p hp hprefix => ?_, hlength, hgroups, hmailbox, ?_⟩
    swap
    · rw [hmailbox, htidy.sound.history_run, List.map_append, harrivals]
    have hmem : p ∈ done ++ rest := List.mem_append_right done (List.mem_of_head? hp)
    exact (RtdeFrame.recognised (hpackages p hmem).1).not_isPrefix hwait' hprefix
  · intro now values i name v type hname hlast hv htype
    exact ⟨get?_record hname hlast hv, get?_record hname hlast htype⟩

/-- A stream of three packages, one of them of another recipe, that is cut within the last. -/
theorem delivers_of_setup_timestamp :
    ∃ c c', Delivers ⟨[js "timestamp"], [.double], 1, rfl⟩
      [.data [.double 5], .other 2 [7], .data [.double 6]]
      [.readSample (some 1000) (js "1000"),
        .chunk 0 [0, 12, 0x55, 1, 0, 0, 0, 0, 0, 0, 0, 5, 0, 5, 0x55], .chunk 1 [2, 7, 0, 12, 0x55, 1]]
      c c' ∧ c'.fates.map Prod.fst = [.read 0] := by
  have hdelivers := @delivers_of_setup ⟨[js "timestamp"], [.double], 1, rfl⟩ none
    [.awaitFrame RtdeCommand.setupOutputs,
      .chunk 0 (RtdeFrame.bytes ⟨RtdeCommand.setupOutputs, setupReply 1 [some .double]⟩)]
    [.readSample (some 1000) (js "1000"),
      .chunk 0 [0, 12, 0x55, 1, 0, 0, 0, 0, 0, 0, 0, 5, 0, 5, 0x55], .chunk 1 [2, 7, 0, 12, 0x55, 1]] 0
  obtain ⟨c', hc', hfates⟩ := Option.map_eq_some_iff.mp
    (show (machine.run (create [js "timestamp"] none) ([.awaitFrame RtdeCommand.setupOutputs,
        .chunk 0 (RtdeFrame.bytes ⟨RtdeCommand.setupOutputs, setupReply 1 [some .double]⟩)] ++
        .setupOutputs 0 :: [.readSample (some 1000) (js "1000"),
          .chunk 0 [0, 12, 0x55, 1, 0, 0, 0, 0, 0, 0, 0, 5, 0, 5, 0x55],
          .chunk 1 [2, 7, 0, 12, 0x55, 1]])).map (fun c => c.fates.map Prod.fst) =
            some [Fate.read 0] by decide +kernel)
  obtain ⟨c₀, hc₀, hrest⟩ := machine.run_append_eq_some.mp hc'
  obtain ⟨c, hsetup, hrun⟩ := machine.run_cons_eq_some.mp hrest
  have hreply : (machine.run (create [js "timestamp"] none) [.awaitFrame RtdeCommand.setupOutputs,
      .chunk 0 (RtdeFrame.bytes ⟨RtdeCommand.setupOutputs, setupReply 1 [some .double]⟩)]).bind
        (fun c => c.frameOf 0) =
          some ⟨RtdeCommand.setupOutputs, setupReply 1 [some .double]⟩ := by decide +kernel
  have hpending : ((machine.run (create [js "timestamp"] none) [.awaitFrame RtdeCommand.setupOutputs,
      .chunk 0 (RtdeFrame.bytes ⟨RtdeCommand.setupOutputs, setupReply 1 [some .double]⟩)]).bind
        (fun c => machine.step c (.setupOutputs 0))).map (fun c => c.pending) = some [] := by
    decide +kernel
  rw [hc₀] at hreply hpending
  rw [Option.bind_some, hsetup] at hpending
  have hpending : c.pending = [] := Option.some.inj hpending
  refine ⟨c, c', (hdelivers hc₀ hreply hsetup ?_ hrun ?_).2.1, hfates⟩
  · rintro p (_ | ⟨_, _ | ⟨_, _ | ⟨_, ⟨⟩⟩⟩⟩)
    · exact ⟨by decide +kernel, rfl⟩
    · exact ⟨by decide +kernel, by decide⟩
    · exact ⟨by decide +kernel, rfl⟩
  · rw [hpending]
    decide +kernel

end UrRtdeClient

end Pinout.Rtde
