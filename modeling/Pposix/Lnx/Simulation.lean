-- SUMMARY: The lists of the kernel as watches: each step does what its entry of the log says.
import Pposix.Lnx.Instances

/-!
# Lists as watches

A registered event stands for a watch, and a kernel for the desk that its users see. Every
step of the machine adds one entry, and the kernel changes as the entry says.
-/

namespace Interest

open EpollEventFlag

/-! ## Items as watches -/

/-- An item with conditions of its own is to be reported. -/
def watchOf (item : EpollEvent) : Watch where
  asked := layout.denote item.events
  data := item.data
  armed := item.events &&& ~~~privateBits != 0

theorem denote_alwaysBits : layout.denote alwaysBits = {.fdError, .fdHup} := by
  have hbits : alwaysBits = layout.single .fdError ||| layout.single .fdHup := rfl
  rw [hbits, Layout.denote_or, Layout.denote_single, Layout.denote_single]
  rfl

theorem denote_privateBits : layout.denote privateBits = modes := by
  have hbits : privateBits = layout.single .exclusive ||| (layout.single .wakeup |||
      (layout.single .oneShot ||| layout.single .edgeTriggered)) := rfl
  simp only [hbits, Layout.denote_or, Layout.denote_single]
  rfl

/-- A constant meets a word when the word has it. -/
theorem and_underlying_ne_zero {m : Word} {c : EpollEventFlag} :
    m &&& c.underlying ≠ 0 ↔ c ∈ layout.denote m := by
  rw [underlying_eq_single]
  exact Layout.and_single_ne_zero

theorem mem_seen {r : Report} {c : EpollEventFlag} :
    c ∈ r.seen ↔ c ∈ layout.denote r.event.events := by
  apply Iff.trans _ and_underlying_ne_zero
  exact bne_iff_ne

/-- An item shows what was asked for, with errors and hang-ups. -/
theorem watchOf_item (event : EpollEvent) :
    watchOf { event with events := event.events ||| alwaysBits } = .of event := by
  have harmed : ((event.events ||| alwaysBits) &&& ~~~privateBits != 0) = true := by
    apply bne_iff_ne.mpr
    intro hzero
    have hbit := congrArg (fun m : Word => m.getLsbD 3) hzero
    simp [alwaysBits, privateBits] at hbit
  simp only [watchOf, Watch.of, Layout.denote_or, denote_alwaysBits, harmed]

theorem watchOf_fired (item : EpollEvent) : watchOf (fired item) = (watchOf item).fired := by
  unfold fired Watch.fired
  have hshot : item.events &&& oneShot.underlying ≠ 0 ↔ .oneShot ∈ (watchOf item).asked :=
    and_underlying_ne_zero
  split <;> rename_i h
  · rw [if_pos (hshot.mp h)]
    have hnone : item.events &&& privateBits &&& ~~~privateBits = 0 := by
      rw [BitVec.and_assoc, BitVec.and_not_self]
      exact BitVec.and_zero
    simp only [watchOf, Layout.denote_and, denote_privateBits, hnone, bne_self_eq_false]
  · rw [if_neg fun hmem => h (hshot.mpr hmem)]

/-! ## Lists -/

section Items

variable {l l' : Items} {inst : Nat} {key : Key} {r : Report}

theorem isSome_map : (l.map watchOf inst key).isSome = (l inst key).isSome := Option.isSome_map

theorem map_eq_none : l.map watchOf inst key = none ↔ l inst key = none := Option.map_eq_none_iff

/-- Words that meet outside of a third one. -/
theorem and_not_ne_zero {m x p : Word} (hmeet : m &&& x ≠ 0) (hout : x &&& p = 0) :
    m &&& ~~~p ≠ 0 := by
  intro hzero
  apply hmeet
  have hx : x = x &&& ~~~p := by
    have hsplit : x = (x &&& p) ||| (x &&& ~~~p) := by
      rw [← BitVec.and_or_distrib_left, BitVec.or_not_self, BitVec.and_allOnes]
    rw [hout] at hsplit
    exact hsplit.trans BitVec.zero_or
  rw [hx, BitVec.and_comm x, ← BitVec.and_assoc, hzero]
  exact BitVec.zero_and

/-- A report shows conditions that were asked for, and the data. -/
theorem report_spec {x : Key × Word} (h : l.report inst x = some r) :
    r.key = x.1 ∧ ∃ w, l.map watchOf inst r.key = some w ∧ r.Shows w := by
  obtain ⟨item, hitem, hreport⟩ := Option.bind_eq_some_iff.mp h
  simp only at hreport
  split at hreport
  · rename_i hmask
    cases hreport
    refine ⟨rfl, watchOf item, by simp [Lists.map, hitem], ?_, rfl, ?_⟩
    · exact bne_iff_ne.mpr (and_not_ne_zero hmask.1 hmask.2)
    · intro c hc
      have hboth : c ∈ layout.denote (item.events &&& x.2) := mem_seen.mp hc
      rw [Layout.denote_and] at hboth
      refine ⟨hboth.1, fun hmode => ?_⟩
      have hnone : c ∈ layout.denote (x.2 &&& privateBits) := by
        rw [Layout.denote_and, denote_privateBits]
        exact ⟨hboth.2, hmode⟩
      rw [hmask.2, Layout.denote_zero] at hnone
      exact hnone
  · cases hreport

/-- The reports of a wait, one for each place that is ready. -/
theorem reports_spec {ready : List (Key × Word)} :
    ∀ {reports : List Report}, ready.mapM (l.report inst) = some reports →
      reports.map Report.key = ready.map Prod.fst ∧
      ∀ r ∈ reports, ∃ w, l.map watchOf inst r.key = some w ∧ r.Shows w := by
  induction ready with
  | nil =>
    intro reports h
    cases h
    exact ⟨rfl, by simp⟩
  | cons x ready ih =>
    intro reports h
    simp only [List.mapM_cons, Option.bind_eq_bind, Option.bind_eq_some_iff] at h
    obtain ⟨r, hr, rest, hrest, hreports⟩ := h
    cases hreports
    obtain ⟨hkeys, hall⟩ := ih hrest
    obtain ⟨hkey, hr⟩ := report_spec hr
    refine ⟨by rw [List.map_cons, List.map_cons, hkey, hkeys], ?_⟩
    intro r' hr'
    cases List.mem_cons.mp hr' with
    | inl hhead => exact hhead ▸ hr
    | inr htail => exact hall r' htail

/-- A capacity that an `int` holds is the length, and one that it does not is less. -/
theorem toInt_le (n : Nat) : toInt n ≤ n := by
  have hsize : UInt32.size = 4294967296 := rfl
  rw [toInt, Int.bmod_def, hsize]
  split <;> omega

/-- The reports of a wait fit its span and are for different places. -/
theorem wait_spec {length : SizeT} {ready : List (Key × Word)} {reports : List Report}
    (h : l.wait inst (toInt length.toNat) ready = some (reports, l')) :
    reports.length ≤ length.toNat ∧ (reports.map Report.key).Nodup ∧
      (∀ r ∈ reports, ∃ w, l.map watchOf inst r.key = some w ∧ r.Shows w) ∧
      l'.map watchOf = (l.map watchOf).fire Watch.fired inst (reports.map Report.key) := by
  unfold Items.wait at h
  split at h
  · rename_i hroom
    obtain ⟨rs, hrs, heq⟩ := Option.map_eq_some_iff.mp h
    cases heq
    obtain ⟨hkeys, hall⟩ := reports_spec hrs
    have hlen : reports.length = ready.length := by simpa using congrArg List.length hkeys
    have hle := toInt_le length.toNat
    refine ⟨by omega, hkeys ▸ hroom.2.2, hall, ?_⟩
    rw [hkeys]
    exact Lists.map_fire watchOf l watchOf_fired inst _
  · cases h

/-- What `::epoll_ctl` did with a place. -/
inductive Ctl (l : Items) (inst : Nat) (key : Key) :
    EpollOperation → Option EpollEvent → Items → Prop where
  | add {event : EpollEvent} {l' : Items} : l inst key = none →
      l'.map watchOf = (l.map watchOf).put inst key (some (.of event)) →
      Ctl l inst key .add (some event) l'
  | modify {event : EpollEvent} {l' : Items} : (l inst key).isSome →
      l'.map watchOf = (l.map watchOf).put inst key (some (.of event)) →
      Ctl l inst key .modify (some event) l'
  | remove {event : Option EpollEvent} {l' : Items} : (l inst key).isSome →
      l'.map watchOf = (l.map watchOf).put inst key none → Ctl l inst key .remove event l'

theorem ctl_spec {op : EpollOperation} {event : Option EpollEvent}
    (h : l.ctl inst op.underlying key event = some l') : Ctl l inst key op event l' := by
  have hput : ∀ ev : EpollEvent,
      (l.put inst key (some { ev with events := ev.events ||| alwaysBits })).map watchOf =
        (l.map watchOf).put inst key (some (.of ev)) := by
    intro ev
    rw [Lists.map_put, Option.map_some, watchOf_item]
  cases op with
  | remove =>
    simp only [Items.ctl, if_pos] at h
    split at h
    · rename_i hsome
      cases h
      exact .remove hsome (Lists.map_put watchOf l inst key none)
    · cases h
  | add =>
    have hne : EpollOperation.add.underlying ≠ EpollOperation.remove.underlying := by decide
    simp only [Items.ctl, if_neg hne, Option.bind_eq_bind, Option.bind_eq_some_iff] at h
    obtain ⟨ev, rfl, h⟩ := h
    split at h
    · rename_i hadd
      cases h
      exact .add hadd.2 (hput ev)
    · split at h
      · rename_i hmodify
        exact absurd hmodify.1 (by decide)
      · cases h
  | modify =>
    have hne : EpollOperation.modify.underlying ≠ EpollOperation.remove.underlying := by decide
    simp only [Items.ctl, if_neg hne, Option.bind_eq_bind, Option.bind_eq_some_iff] at h
    obtain ⟨ev, rfl, h⟩ := h
    split at h
    · rename_i hadd
      exact absurd hadd.1 (by decide)
    · split at h
      · rename_i hmodify
        cases h
        exact .modify hmodify.2 (hput ev)
      · cases h

end Items

/-! ## Kernels -/

section Kernels

variable {η : Type} [DecidableEq η] {k k' : Kernel η} {d d' : Desc η}

/-- What the users see of a kernel. -/
def Kernel.abs (k : Kernel η) : Desk η where
  refs := k.refs.find
  epolls := k.epolls
  watches := k.items.map watchOf

theorem ref_eq {file : Nat} (h : k.refs.find d = some file) : k.ref d = ⟨d, file⟩ := by
  rw [Kernel.ref, h]
  rfl

theorem attach_serves {file : Nat} {epoll : Bool} (h : k.attach d file epoll = some k') :
    Serves k.abs (.opened ⟨d, file⟩ epoll) k'.abs ∧ k'.ref d = ⟨d, file⟩ := by
  unfold Kernel.attach at h
  split at h
  · rename_i hfree
    cases h
    have hfind := Refs.find_insert k.refs d file
    constructor
    · have habs : Kernel.abs { k with
          refs := k.refs.insert d file
          epolls := Function.update k.epolls file epoll } = k.abs.attach ⟨d, file⟩ epoll := by
        simp only [Kernel.abs, hfind]
        rfl
      rw [habs]
      exact .opened hfree.1 (Refs.holds_eq_false_iff.mp hfree.2)
    · apply ref_eq
      simp only [hfind, Function.update_self]
  · cases h

theorem share_serves (h : k.share d d' = some k') : Serves k.abs (.shared (k.ref d) d') k'.abs := by
  simp only [Kernel.share, Option.bind_eq_bind, Option.bind_eq_some_iff] at h
  obtain ⟨file, hfile, h⟩ := h
  split at h
  · rename_i hfree
    cases h
    have habs : Kernel.abs { k with refs := k.refs.insert d' file } =
        k.abs.refer ⟨d', file⟩ := by
      simp only [Kernel.abs, Refs.find_insert]
      rfl
    rw [habs, ref_eq hfile]
    exact .shared hfile hfree
  · cases h

theorem abs_release (k : Kernel η) (d : Desc η) :
    (k.release d).abs = k.abs.close d (k.refs.last d) := by
  unfold Kernel.release
  cases k.refs.last d with
  | none => simp only [Kernel.abs, Refs.find_erase, Desk.close]
  | some file => simp only [Kernel.abs, Refs.find_erase, Lists.map_drop, Desk.close]

theorem release_serves (h : (k.refs.find d).isSome) :
    Serves k.abs (.closed d (k.refs.last d)) (k.release d).abs := by
  rw [abs_release]
  exact .closed h fun file => Refs.last_eq_some_iff

theorem find_release (k : Kernel η) (d : Desc η) : (k.release d).refs.find d = none := by
  have hrefs : (k.release d).abs.refs d = none := by
    rw [abs_release]
    cases k.refs.last d <;> exact Function.update_self ..
  exact hrefs

/-- To release a descriptor that is free changes nothing. -/
theorem abs_release_free (h : k.refs.find d = none) : (k.release d).abs = k.abs := by
  have hlast : k.refs.last d = none := by
    rw [Refs.last, h]
    rfl
  have hsame : Function.update k.abs.refs d none = k.abs.refs := by
    have hnone : k.abs.refs d = none := h
    rw [← hnone, Function.update_eq_self]
  rw [abs_release, hlast]
  simp only [Desk.close, hsame]

theorem closing_serves (h : k' = k ∨ k' = k.release d) :
    Serves k.abs (closing k k' d) k'.abs := by
  unfold closing
  cases h with
  | inl hsame =>
    subst hsame
    rw [if_neg fun hboth => Option.isSome_iff_ne_none.mp hboth.1 hboth.2]
    exact .unclosed
  | inr hrelease =>
    subst hrelease
    split
    · rename_i hheld
      exact release_serves hheld.1
    · rename_i hfree
      have hnone : k.refs.find d = none := by
        by_contra hne
        exact hfree ⟨Option.isSome_iff_ne_none.mpr hne, find_release k d⟩
      rw [abs_release_free hnone]
      exact .unclosed

theorem inst_spec {via : η} {epfd : Int} {inst : Nat} (h : k.inst via epfd = some inst) :
    k.refs.find (via, epfd) = some inst ∧ k.epolls inst = true := by
  rw [Kernel.inst, Option.filter_eq_some_iff] at h
  exact h

/-- What a control call did is what its caller sees. -/
theorem ctl_serves {home via : η} {this : Epoll} {op : EpollOperation} {fd : Int}
    {event : Option EpollEvent} {reports : List Report}
    (h : k.ctl via this.epollFd.raw op.underlying fd event = some k') :
    Serves k.abs (entry home via k k' reports (.changed this op fd event {})) k'.abs := by
  simp only [Kernel.ctl, Option.bind_eq_bind, Option.bind_eq_some_iff] at h
  obtain ⟨inst, hinst, file, hfile, h⟩ := h
  split at h
  · rename_i hother
    obtain ⟨items, hitems, heq⟩ := Option.map_eq_some_iff.mp h
    cases heq
    have hspec := inst_spec hinst
    have hep := ref_eq hspec.1
    have href := ref_eq hfile
    have hreaches : k.abs.Reaches ⟨(via, this.epollFd.raw), inst⟩ ⟨(via, fd), file⟩ :=
      ⟨hspec.1, hspec.2, hfile, hother⟩
    have hok : ({} : ErrorCode).isError = false := rfl
    have habs : Kernel.abs { k with items := items } =
        { k.abs with watches := items.map watchOf } := rfl
    simp only [entry, hok, hep, href, Bool.false_eq_true, if_false]
    cases ctl_spec hitems with
    | add hnone hmap =>
      rw [habs, hmap]
      exact .added hreaches (map_eq_none.mpr hnone)
    | modify hsome hmap =>
      rw [habs, hmap]
      exact .modified hreaches (isSome_map ▸ hsome)
    | remove hsome hmap =>
      rw [habs, hmap]
      exact .removed hreaches (isSome_map ▸ hsome)
  · cases h

theorem wait_serves {via : η} {epfd : Int} {length : SizeT} {ready : List (Key × Word)}
    {reports : List Report}
    (h : k.wait via epfd (toInt length.toNat) ready = some (reports, k')) :
    Serves k.abs (.reported (k.ref (via, epfd)) length.toNat reports) k'.abs := by
  simp only [Kernel.wait, Option.bind_eq_bind, Option.bind_eq_some_iff] at h
  obtain ⟨inst, hinst, h⟩ := h
  obtain ⟨x, hx, heq⟩ := Option.map_eq_some_iff.mp h
  cases heq
  obtain ⟨hfind, hepoll⟩ := inst_spec hinst
  obtain ⟨hlen, hnodup, hall, hmap⟩ := wait_spec hx
  have habs : Kernel.abs { k with items := x.2 } = { k.abs with watches := x.2.map watchOf } := rfl
  rw [ref_eq hfind, habs, hmap]
  exact .reported hfind hepoll hlen hnodup hall

/-! ## Calls -/

variable {home via : η} {choice : Choice} {c : Syscall} {resp : Response}
  {reports : List Report}

/-- A call that fails changes nothing, unless it is a close. -/
theorem answer_fail {err : Errno} {released : Bool} (hc : ∀ fd, c ≠ .close fd)
    (h : answer home via (.fail err released) (k, []) c = some (resp, k', reports)) :
    err ≠ 0 ∧ resp = ⟨-1, err, .nothing⟩ ∧ k' = k := by
  have hanswer : answer home via (.fail err released) (k, []) c =
      if err ≠ 0 then some (⟨-1, err, .nothing⟩, k, []) else none := by
    cases c with
    | close fd => exact absurd rfl (hc fd)
    | _ => rfl
  rw [hanswer] at h
  split at h
  · rename_i herr
    cases h
    exact ⟨herr, rfl, rfl⟩
  · cases h

/-- A call that makes an instance. -/
theorem created_serves (hc : (∃ size, c = .epollCreate size) ∨ ∃ flags, c = .epollCreate1 flags)
    (h : answer home via choice (k, []) c = some (resp, k', reports)) :
    Serves k.abs (entry home via k k' reports (.created (resp.result Wrapper.ofRaw))) k'.abs := by
  have hattach : ∀ {noise : Errno} {fd file : Nat},
      (k.attach (home, fd) file true).map
        (fun k => ((⟨fd, noise, .nothing⟩ : Response), k, ([] : List Report))) =
          some (resp, k', reports) →
      Serves k.abs (entry home via k k' reports (.created (resp.result Wrapper.ofRaw)))
        k'.abs := by
    intro noise fd file hmap
    obtain ⟨k₁, hk₁, heq⟩ := Option.map_eq_some_iff.mp hmap
    cases heq
    obtain ⟨hserves, href⟩ := attach_serves hk₁
    have hret : ¬ (fd : Int) = -1 := by omega
    have hraw : (Wrapper.ofRaw (fd : Int) : Epoll).epollFd.raw = fd := rfl
    simp only [Response.result, if_neg hret, entry, hraw, href]
    exact hserves
  cases choice with
  | fail err released =>
    have hnot : ∀ fd, c ≠ .close fd := by rcases hc with ⟨size, rfl⟩ | ⟨flags, rfl⟩ <;> simp
    obtain ⟨-, rfl, rfl⟩ := answer_fail hnot h
    exact .failed
  | created noise fd file =>
    rcases hc with ⟨size, rfl⟩ | ⟨flags, rfl⟩
    · simp only [answer] at h
      split at h
      · exact hattach h
      · cases h
    · simp only [answer] at h
      split at h
      · exact hattach h
      · cases h
  | done noise ready => rcases hc with ⟨size, rfl⟩ | ⟨flags, rfl⟩ <;> cases h

theorem destroyed_serves {this : Epoll}
    (h : answer home via choice (k, []) (.close this.epollFd.raw) = some (resp, k', reports)) :
    Serves k.abs (entry home via k k' reports (.destroyed this)) k'.abs := by
  simp only [entry]
  apply closing_serves
  cases hfd : this.epollFd.raw with
  | negSucc n =>
    rw [hfd] at h
    cases choice <;> cases h <;> exact .inl rfl
  | ofNat n =>
    rw [hfd] at h
    cases choice with
    | fail err released =>
      simp only [answer, Kernel.failed] at h
      split at h
      · cases h
        cases released with
        | false => exact .inl rfl
        | true => exact .inr rfl
      · cases h
    | created noise fd file => cases h
    | done noise ready =>
      simp only [answer] at h
      split at h
      · cases h
        exact .inr rfl
      · cases h

theorem changed_serves {this : Epoll} {op : EpollOperation} {fd : Int}
    {event : Option EpollEvent}
    (h : answer home via choice (k, []) (.epollCtl this.epollFd.raw op.underlying fd event) =
      some (resp, k', reports)) :
    Serves k.abs (entry home via k k' reports (.changed this op fd event resp.errorCode))
      k'.abs := by
  cases choice with
  | fail err released =>
    obtain ⟨herr, rfl, rfl⟩ := answer_fail (by simp) h
    simp only [entry, Response.errorCode_fail, ErrorCode.isError_mk herr, if_true]
    exact .failed
  | created noise fd file => cases h
  | done noise ready =>
    obtain ⟨k₁, hk₁, heq⟩ := Option.map_eq_some_iff.mp h
    cases heq
    exact ctl_serves hk₁

theorem waited_serves {this : Epoll} {events : Span}
    (hc : (∃ timeout, c = .epollWait this.epollFd.raw events.data
        (toInt events.length.toNat) timeout) ∨
      ∃ timeout sigmask, c = .epollPwait this.epollFd.raw events.data
        (toInt events.length.toNat) timeout sigmask)
    (h : answer home via choice (k, []) c = some (resp, k', reports)) :
    Serves k.abs (entry home via k k' reports (.waited this events (.error resp.errorCode)))
      k'.abs := by
  cases choice with
  | fail err released =>
    have hnot : ∀ fd, c ≠ .close fd := by
      rcases hc with ⟨timeout, rfl⟩ | ⟨timeout, sigmask, rfl⟩ <;> simp
    obtain ⟨herr, rfl, rfl⟩ := answer_fail hnot h
    simp only [entry, Response.errorCode_fail, ErrorCode.isError_mk herr, if_true]
    exact .failed
  | created noise fd file => rcases hc with ⟨timeout, rfl⟩ | ⟨timeout, sigmask, rfl⟩ <;> cases h
  | done noise ready =>
    have hdone : (k.wait via this.epollFd.raw (toInt events.length.toNat) ready).map
        (fun x => ((⟨x.1.length, noise, .nothing⟩ : Response), x.2, x.1)) =
          some (resp, k', reports) := by
      rcases hc with ⟨timeout, rfl⟩ | ⟨timeout, sigmask, rfl⟩ <;> exact h
    obtain ⟨x, hx, heq⟩ := Option.map_eq_some_iff.mp hdone
    cases heq
    have hret : ¬ (x.1.length : Int) = -1 := by omega
    have hcode : (Response.mk x.1.length noise .nothing).errorCode = {} := if_neg hret
    have hok : ({} : ErrorCode).isError = false := rfl
    simp only [entry, hcode, hok, Bool.false_eq_true, if_false]
    exact wait_serves hx

/-- What a call did, as its entry says, is what it did to the desk. -/
theorem call_serves {c : Call}
    (h : answer home via choice (k, []) c.syscall = some (resp, k', reports)) :
    Serves k.abs (entry home via k k' reports (c.sees resp)) k'.abs := by
  cases c with
  | unsafeCreate size => exact created_serves (.inl ⟨size, rfl⟩) h
  | unsafeCreate1 flags => exact created_serves (.inr ⟨_, rfl⟩) h
  | create => exact created_serves (.inl ⟨1, rfl⟩) h
  | createCloexec => exact created_serves (.inr ⟨_, rfl⟩) h
  | destroy this => exact destroyed_serves h
  | unsafeCtl this op fd event => exact changed_serves h
  | ctlAdd this add => exact changed_serves h
  | ctlRemove this remove => exact changed_serves h
  | ctlModify this mod => exact changed_serves h
  | wait this events timeout => exact waited_serves (.inl ⟨timeout, rfl⟩) h
  | pwait this events timeout sigmask => exact waited_serves (.inr ⟨timeout, sigmask, rfl⟩) h

end Kernels

/-! ## Runs -/

section Runs

variable {ρ π : Type} [DecidableEq ρ] [DecidableEq π] {proc : π → ρ} {s s' : State ρ π}

/-- Every step adds the entry that says what it did. -/
theorem step_logs {a : Action ρ π} (h : step proc s a = some s') :
    Replays.Logs Serves (fun s => s.kernel.abs) State.log s s' := by
  cases a with
  | call who early c choice =>
    simp only [step, Call.exec_run, Option.bind_eq_bind, Option.bind_eq_some_iff,
      Option.map_eq_some_iff] at h
    obtain ⟨x, ⟨⟨resp, kernel, reports⟩, hanswer, rfl⟩, heq⟩ := h
    cases heq
    exact .inr ⟨_, rfl, call_serves hanswer⟩
  | open_ d file epoll =>
    simp only [step, Option.bind_eq_bind, Option.bind_eq_some_iff] at h
    obtain ⟨kernel, hattach, heq⟩ := h
    cases heq
    exact .inr ⟨_, rfl, (attach_serves hattach).1⟩
  | share d d' =>
    simp only [step, Option.bind_eq_bind, Option.bind_eq_some_iff] at h
    obtain ⟨kernel, hshare, heq⟩ := h
    cases heq
    exact .inr ⟨_, rfl, share_serves hshare⟩
  | close d =>
    simp only [step] at h
    split at h
    · rename_i hheld
      cases h
      exact .inr ⟨_, rfl, release_serves hheld⟩
    · cases h

/-- Nothing is open and nothing is watched. -/
def Desk.empty {η : Type} : Desk η := ⟨fun _ => none, fun _ => false, fun _ _ => none⟩

/-- In every run what was done replays on the desk. -/
theorem replays_always (errno : π → Errno) (as : List (Action ρ π)) :
    Machine.Always (step proc) (fun s => Replays Serves .empty s.log s.kernel.abs)
      (State.init errno) as :=
  Replays.always (I := fun _ => True) (s := State.init errno) (fun _ h => ⟨trivial, step_logs h⟩)
    trivial rfl as

end Runs

end Interest
