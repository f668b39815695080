-- SUMMARY: What a wait reports is what was last asked, for descriptions that are still open.
import Pposix.Lnx.Simulation

/-!
# Reports

The log alone says what a descriptor refers to, which instances there are, and what was
last asked for a place on the list of one. A wait reports that, and gives the data back.
-/

namespace Interest

open EpollEventFlag

variable {η : Type}

/-! ## What a log says -/

/-- The entry makes a descriptor refer to a description. -/
def Entry.Makes (r : Ref η) : Entry η → Prop
  | .opened r' _ => r' = r
  | .shared r' d => ⟨d, r'.file⟩ = r
  | _ => False

def Entry.Closes (d : Desc η) : Entry η → Prop
  | .closed d' _ => d' = d
  | _ => False

/-- The descriptor was made to refer to the description, and not closed since. -/
def RefersTo (log : List (Entry η)) (r : Ref η) : Prop :=
  InForce (Entry.Makes r) (Entry.Closes r.desc) log

/-- The entry makes an instance. -/
def Entry.Begins (inst : Nat) : Entry η → Prop
  | .opened r epoll => r.file = inst ∧ epoll = true
  | _ => False

/-- The entry closes the last descriptor of a description. -/
def Entry.Drops (file : Nat) : Entry η → Prop
  | .closed _ gone => gone = some file
  | _ => False

/-- The instance was made, and has a descriptor since. -/
def Lives (log : List (Entry η)) (inst : Nat) : Prop :=
  InForce (Entry.Begins inst) (Entry.Drops inst) log

/-- The entry asks for `event` for a place on the list of an instance. -/
def Entry.Asks (inst : Nat) (key : Key) (event : EpollEvent) : Entry η → Prop
  | .added ep r event' | .modified ep r event' =>
    ep.file = inst ∧ r.key = key ∧ event' = event
  | _ => False

/-- The entry ends what was asked: something else is asked, the place is removed, the
instance or the description goes, or it is reported and was to be reported once. -/
def Entry.Ends (inst : Nat) (key : Key) (event : EpollEvent) : Entry η → Prop
  | .added ep r _ | .modified ep r _ | .removed ep r => ep.file = inst ∧ r.key = key
  | .closed _ gone => gone = some inst ∨ gone = some key.file
  | .reported ep _ reports =>
    ep.file = inst ∧ key ∈ reports.map Report.key ∧ .oneShot ∈ layout.denote event.events
  | _ => False

/-- The event was asked for the place, and nothing ended that since. -/
def Asked (log : List (Entry η)) (inst : Nat) (key : Key) (event : EpollEvent) : Prop :=
  InForce (Entry.Asks inst key event) (Entry.Ends inst key event) log

/-- The descriptors that a call looked up. -/
def Entry.uses : Entry η → List (Ref η)
  | .shared r _ => [r]
  | .added ep r _ | .modified ep r _ | .removed ep r => [ep, r]
  | .reported ep _ _ => [ep]
  | _ => []

/-- Every event that a wait writes fits its span, gives back the data that was last asked
for its place, and its accessors find only conditions that were asked for, errors and
hang-ups. Nothing else is set in it. -/
structure Truthful (log : List (Entry η)) : Prop where
  /-- A call finds what the entries before it made its numbers refer to. -/
  found : ∀ i e, log[i]? = some e → ∀ r ∈ e.uses, RefersTo (log.take i) r
  new : ∀ i r epoll, log[i]? = some (.opened r epoll) → ∀ d, ¬ RefersTo (log.take i) ⟨d, r.file⟩
  /-- A description goes with the last descriptor that refers to it. -/
  gone : ∀ i d gone, log[i]? = some (.closed d gone) → ∀ file, gone = some file ↔
    RefersTo (log.take i) ⟨d, file⟩ ∧ ∀ d', d' ≠ d → ¬ RefersTo (log.take i) ⟨d', file⟩
  reported : ∀ i ep room reports, log[i]? = some (.reported ep room reports) →
    reports.length ≤ room ∧ (reports.map Report.key).Nodup ∧ Lives (log.take i) ep.file ∧
      ∀ r ∈ reports, (∀ c, r.finds c = true ↔ c ∈ r.seen) ∧
        ∃ event, Asked (log.take i) ep.file r.key event ∧ r.event.data = event.data ∧
          ∀ c, r.finds c = true → c ∈ layout.denote event.events ∪ {.fdError, .fdHup}

/-! ## Descriptors -/

section Replayed

variable [DecidableEq η] {s s' : Desk η} {log : List (Entry η)} {e : Entry η}

/-- What one more entry does to what the descriptors refer to. -/
theorem finds_append (h : Serves s e s') (r : Ref η) :
    s'.Finds r ↔ e.Makes r ∨ (s.Finds r ∧ ¬ e.Closes r.desc) := by
  have hupdate : ∀ (d : Desc η) (file : Nat), s.refs d = none →
      (Function.update s.refs d (some file) r.desc = some r.file ↔
        (⟨d, file⟩ : Ref η) = r ∨ (s.Finds r ∧ ¬ False)) := by
    intro d file hfree
    rw [not_false_eq_true, and_true]
    by_cases hd : r.desc = d
    · subst hd
      rw [Function.update_self, Desk.Finds, hfree]
      constructor
      · intro hfile
        cases hfile
        exact .inl rfl
      · rintro (heq | hold)
        · exact congrArg (fun x => some x.file) heq
        · cases hold
    · rw [Function.update_of_ne hd]
      refine ⟨.inr, fun hor => hor.resolve_left fun heq => hd ?_⟩
      exact (congrArg Ref.desc heq).symm
  cases h with
  | @opened r' _ hfree _ => exact hupdate r'.desc r'.file hfree
  | @shared r' d _ hfree => exact hupdate d r'.file hfree
  | @closed d gone _ _ =>
    have hrefs : (s.close d gone).refs = Function.update s.refs d none := by cases gone <;> rfl
    simp only [Desk.Finds, hrefs, Entry.Makes, Entry.Closes, false_or]
    by_cases hd : r.desc = d
    · subst hd
      simp
    · simp [Function.update_of_ne hd, Ne.symm hd]
  | _ => simp [Desk.Finds, Entry.Makes, Entry.Closes]

/-- A descriptor refers to what the log says. -/
theorem refersTo_iff (h : Replays Serves .empty log s) (r : Ref η) :
    s.Finds r ↔ RefersTo log r := by
  induction h with
  | nil => exact iff_of_false nofun InForce.not_nil
  | snoc _ hserves ih =>
    rw [finds_append hserves r, ih]
    exact InForce.append_iff.symm

theorem lives_of_replay (h : Replays Serves .empty log s) {inst : Nat}
    (hinst : s.epolls inst = true) : Lives log inst := by
  induction h with
  | nil => cases hinst
  | @snoc log s s' e _ hserves ih =>
    apply InForce.append_iff.mpr
    have hkeep : s.epolls inst = true → ¬ e.Drops inst →
        e.Begins inst ∨ (Lives log inst ∧ ¬ e.Drops inst) :=
      fun hold hdrops => .inr ⟨ih hold, hdrops⟩
    cases hserves with
    | @opened r epoll _ _ =>
      simp only [Desk.attach, Function.update_apply] at hinst
      split at hinst
      · rename_i hsame
        exact .inl ⟨hsame.symm, hinst⟩
      · exact hkeep hinst id
    | @closed d gone _ _ =>
      cases gone with
      | none => exact hkeep hinst nofun
      | some file =>
        simp only [Desk.close, Function.update_apply] at hinst
        split at hinst
        · cases hinst
        · rename_i hother
          refine hkeep hinst fun hdrops => hother ?_
          cases hdrops
          rfl
    | _ => exact hkeep hinst id

/-! ## What the watches hold -/

/-- A watch is what was asked last, or is not to be reported. -/
def Held (log : List (Entry η)) (l : Lists Watch) : Prop :=
  ∀ inst key w, l inst key = some w →
    (∃ event, Asked log inst key event ∧ w = .of event) ∨ w.armed = false

omit [DecidableEq η] in
/-- Each watch after an entry is asked for by it, is not to be reported, or was there
before and is not ended. -/
theorem Held.append {l l' : Lists Watch} (hl : Held log l)
    (hkeep : ∀ inst key w, l' inst key = some w →
      (∃ event, e.Asks inst key event ∧ w = .of event) ∨ w.armed = false ∨
        (l inst key = some w ∧ ∀ event, w = .of event → ¬ e.Ends inst key event)) :
    Held (log ++ [e]) l' := by
  intro inst key w hw
  obtain ⟨event, hasks, hof⟩ | hfired | ⟨hold, hends⟩ := hkeep inst key w hw
  · exact .inl ⟨event, InForce.new log hasks, hof⟩
  · exact .inr hfired
  · apply (hl inst key w hold).imp_left
    intro ⟨event, hasked, hof⟩
    exact ⟨event, InForce.append hasked (hends event hof), hof⟩

omit [DecidableEq η] in
/-- An entry that ends nothing leaves the watches as they are. -/
theorem Held.same {l : Lists Watch} (hl : Held log l)
    (hends : ∀ inst key event, ¬ e.Ends inst key event) : Held (log ++ [e]) l :=
  hl.append fun inst key _ hw => .inr (.inr ⟨hw, fun event _ => hends inst key event⟩)

omit [DecidableEq η] in
/-- An entry that ends what is at one place, and may ask for something there. -/
theorem Held.put {l : Lists Watch} {ep r : Ref η} {x : Option EpollEvent} (hl : Held log l)
    (hasks : ∀ event ∈ x, e.Asks ep.file r.key event)
    (hends : ∀ inst key event, e.Ends inst key event → ep.file = inst ∧ r.key = key) :
    Held (log ++ [e]) (l.put ep.file r.key (x.map .of)) := by
  apply hl.append
  intro inst key w hw
  unfold Lists.put at hw
  split at hw
  · rename_i hsame
    obtain ⟨rfl, rfl⟩ := hsame
    obtain ⟨event, hx, rfl⟩ := Option.map_eq_some_iff.mp hw
    exact .inl ⟨event, hasks event hx, rfl⟩
  · rename_i hother
    refine .inr (.inr ⟨hw, fun event _ h => hother ?_⟩)
    obtain ⟨rfl, rfl⟩ := hends inst key event h
    exact ⟨rfl, rfl⟩

theorem oneShot_mem_of {event : EpollEvent} : .oneShot ∈ (Watch.of event).asked ↔
    .oneShot ∈ layout.denote event.events := by
  simp [Watch.of]

omit [DecidableEq η] in
theorem Held.reported {l : Lists Watch} {ep : Ref η} {room : Nat} {reports : List Report}
    (hl : Held log l) : Held (log ++ [.reported ep room reports])
      (l.fire Watch.fired ep.file (reports.map Report.key)) := by
  apply hl.append
  intro inst key w hw
  unfold Lists.fire at hw
  split at hw
  · obtain ⟨w₀, hold, hfired⟩ := Option.map_eq_some_iff.mp hw
    unfold Watch.fired at hfired
    split at hfired
    · subst hfired
      exact .inr (.inl rfl)
    · rename_i hshot
      subst hfired
      refine .inr (.inr ⟨hold, fun event hof hends => hshot ?_⟩)
      subst hof
      exact oneShot_mem_of.mpr hends.2.2
  · rename_i hother
    refine .inr (.inr ⟨hw, fun event _ hends => hother ?_⟩)
    exact ⟨hends.1.symm, hends.2.1⟩

omit [DecidableEq η] in
theorem Held.drop {l : Lists Watch} {d : Desc η} {file : Nat} (hl : Held log l) :
    Held (log ++ [.closed d (some file)]) (l.drop file) := by
  apply hl.append
  intro inst key w hw
  unfold Lists.drop at hw
  split at hw
  · cases hw
  · rename_i hother
    refine .inr (.inr ⟨hw, fun event _ hends => hother ?_⟩)
    rcases hends with hinst | hfile
    · cases hinst
      exact .inl rfl
    · cases hfile
      exact .inr rfl

theorem held_of_replay (h : Replays Serves .empty log s) : Held log s.watches := by
  induction h with
  | nil => exact fun _ _ _ hw => nomatch hw
  | snoc _ hserves ih =>
    cases hserves with
    | @added ep r event _ _ =>
      exact ih.put (x := some event) (fun _ hx => ⟨rfl, rfl, Option.some.inj hx⟩)
        fun _ _ _ hends => hends
    | @modified ep r event _ _ =>
      exact ih.put (x := some event) (fun _ hx => ⟨rfl, rfl, Option.some.inj hx⟩)
        fun _ _ _ hends => hends
    | removed _ _ => exact ih.put (x := none) nofun fun _ _ _ hends => hends
    | reported _ _ _ _ _ => exact ih.reported
    | @closed d gone _ _ =>
      cases gone with
      | none => exact ih.same fun _ _ _ hends => by cases hends <;> contradiction
      | some file => exact ih.drop
    | _ => exact ih.same fun _ _ _ => id

/-! ## Runs -/

theorem truthful (h : Replays Serves .empty log s) : Truthful log where
  found i e hi r hr := by
    obtain ⟨t, t', ht, hserves⟩ := h.entry hi
    apply (refersTo_iff ht r).mp
    cases hserves with
    | shared hfinds _ =>
      cases List.mem_singleton.mp hr
      exact hfinds
    | reported hfinds _ _ _ _ =>
      cases List.mem_singleton.mp hr
      exact hfinds
    | added hreaches _ | modified hreaches _ | removed hreaches _ =>
      simp only [Entry.uses, List.mem_cons, List.not_mem_nil, or_false] at hr
      rcases hr with rfl | rfl
      · exact hreaches.inst
      · exact hreaches.file
    | _ => cases hr
  new i r epoll hi d hd := by
    obtain ⟨t, t', ht, hserves⟩ := h.entry hi
    cases hserves with
    | opened _ hnew => exact hnew d ((refersTo_iff ht _).mpr hd)
  gone i d gone hi file := by
    obtain ⟨t, t', ht, hserves⟩ := h.entry hi
    cases hserves with
    | closed _ hgone =>
      rw [hgone file]
      apply and_congr
      · exact refersTo_iff ht ⟨d, file⟩
      · exact forall₂_congr fun d' _ => not_congr (refersTo_iff ht ⟨d', file⟩)
  reported i ep room reports hi := by
    obtain ⟨t, t', ht, hserves⟩ := h.entry hi
    cases hserves with
    | reported _ hepoll hlen hnodup hall =>
      refine ⟨hlen, hnodup, lives_of_replay ht hepoll, fun r hr => ?_⟩
      obtain ⟨w, hw, hshows⟩ := hall r hr
      have hfinds := r.finds_iff fun c hc => (hshows.seen hc).2
      refine ⟨hfinds, ?_⟩
      cases held_of_replay ht ep.file r.key w hw with
      | inl hasked =>
        obtain ⟨event, hasked, rfl⟩ := hasked
        exact ⟨event, hasked, hshows.data, fun c hc => (hshows.seen ((hfinds c).mp hc)).1⟩
      | inr hfired => exact absurd hshows.armed (by rw [hfired]; exact Bool.false_ne_true)

end Replayed

/-! ## Data -/

/-- The member that a constructor writes is read back, and the other bytes are zero. -/
structure DataKept : Prop where
  ptr : ∀ flags p, 0 ≤ p → p < 18446744073709551616 → (EpollEvent.ofPtr flags p).dataPtr = p
  fd : ∀ flags fd, -2147483648 ≤ fd → fd < 2147483648 → (EpollEvent.ofFd flags fd).dataFd = fd
  u32 : ∀ flags n, (EpollEvent.ofU32 flags n).dataU32 = n
  u64 : ∀ flags n, (EpollEvent.ofU64 flags n).dataU64 = n
  fdRest : ∀ flags fd, (EpollEvent.ofFd flags fd).dataU64.toNat < 4294967296
  u32Rest : ∀ flags n, (EpollEvent.ofU32 flags n).dataU64.toNat = n.toNat

theorem dataKept : DataKept where
  ptr := by
    intro flags p hpos hlt
    have hpower : ((2 ^ 64 : Nat) : Int) = 18446744073709551616 := by decide
    simp only [EpollEvent.ofPtr, EpollEvent.dataPtr, BitVec.toNat_ofInt, hpower]
    rw [Int.emod_eq_of_lt hpos hlt, Int.toNat_of_nonneg hpos]
  fd := by
    intro flags fd hpos hlt
    simp only [EpollEvent.ofFd, EpollEvent.dataFd]
    rw [BitVec.setWidth_setWidth_of_le _ (by decide), BitVec.setWidth_eq, BitVec.toInt_ofInt]
    exact Int.bmod_eq_of_le (by omega) (by omega)
  u32 := by
    intro flags n
    simp only [EpollEvent.ofU32, EpollEvent.dataU32]
    rw [BitVec.setWidth_setWidth_of_le _ (by decide), BitVec.setWidth_eq]
  u64 := fun _ _ => rfl
  fdRest := by
    intro flags fd
    simp only [EpollEvent.ofFd, EpollEvent.dataU64]
    exact lt_of_eq_of_lt (BitVec.toNat_setWidth_of_le (by decide)) (BitVec.ofInt 32 fd).isLt
  u32Rest := by
    intro flags n
    simp only [EpollEvent.ofU32, EpollEvent.dataU64]
    exact BitVec.toNat_setWidth_of_le (by decide)

/-- In every run a wait reports what was last asked, and gives the data back. -/
theorem reports_follow_interest {ρ π : Type} [DecidableEq ρ] [DecidableEq π] (proc : π → ρ)
    (errno : π → Errno) (as : List (Action ρ π)) :
    DataKept ∧ Machine.Always (step proc) (fun s => Truthful s.log) (State.init errno) as :=
  ⟨dataKept, (replays_always errno as).mono fun _ h => truthful h⟩

end Interest
