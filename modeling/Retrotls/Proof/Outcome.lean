import Retrotls.Proof.Bind
import Retrotls.Proof.Effects
import Retrotls.Proof.Progress

/-!
# The end of `run`, in order and interleaved

`Spec/Run` runs the startup loop, the wait for the signal, the joins and the drain one
after the other. `Spec/Server` interleaves them with the listener tasks and the connection
tasks. The binds and the joins are answered alike in both (`answers`).

`left` is what is left to do of the sequential program in a state of the server; every step
of every task keeps its outcome (`left_step`).

* `ends_alike`: **the sequential program ends as every interleaving ends**, and some
  interleaving ends.
-/

namespace Retrotls

namespace Run

/-- The state after a listener is bound. -/
def bound (env : Env) (listener : ListenerConfig) (up : Upstream) (w : World) : World :=
  logged env .info ("Listening on ".toList ++ listener.listen.display ++ " -> ".toList ++
    up.base.toText) (w.add (.listen listener.listen))

/-- A listener is bound, and the loop goes on. -/
theorem spawnListeners_bound {env : Env} {idx : ℕ} {listener : ListenerConfig}
    {rest : List ListenerConfig} {up : Upstream} (hp : parseUpstream env.http listener.upstream = .ok up)
    (hb : env.bind idx = none) (w : World) : spawnListeners env idx (listener :: rest) w =
      spawnListeners env (idx + 1) rest (bound env listener up w) := by
  rw [spawnListeners, hp, Prog.ofExcept_ok_bind, hb]
  exact Prog.bind_ok (trace_eq env _ _ (w.add (.listen listener.listen)))

/-- The bind of a listener fails. -/
theorem spawnListeners_failed {env : Env} {idx : ℕ} {listener : ListenerConfig}
    {rest : List ListenerConfig} {up : Upstream} {source : IoError}
    (hp : parseUpstream env.http listener.upstream = .ok up) (hb : env.bind idx = some source) :
    spawnListeners env idx (listener :: rest) = Prog.throw (.bindFailed listener.listen source) := by
  rw [spawnListeners, hp, Prog.ofExcept_ok_bind, hb]

/-- `run`, from the drain on. -/
def drained (env : Env) (config : Config) : Prog World AppError Unit := do
  drain env config
  removePidFile env
  trace env .info "Shutdown complete".toList

/-- It never fails. -/
theorem drained_ok (env : Env) (config : Config) (w : World) : (drained env config w).1 = .ok () := by
  show (drained env config).Ends w fun o _ => o = .ok ()
  refine Prog.ends_bind_ok (I := fun _ => True) ⟨drain_ok config w, trivial⟩ fun w₁ _ => ?_
  have hremove : (removePidFile env).Ends w₁ fun o _ => o = .ok () ∧ True := by
    unfold Prog.Ends
    rw [removePidFile_eq]
    exact ⟨rfl, trivial⟩
  exact Prog.ends_bind_ok (I := fun _ => True) hremove fun w₂ _ => trace_ok _ _ w₂

/-- The state after the signal. -/
def signalled (env : Env) (w : World) : World :=
  logged env .info "Shutdown signal received".toList (waitForShutdownSignal env w).2

/-- The signal is handled, and the rest goes on. -/
theorem signalled_eq (env : Env) (config : Config) (w : World) : (do
      waitForShutdownSignal env
      shutdown env config : Prog World AppError Unit) w = (do
        joinListeners env 0 config.listeners
        drained env config : Prog World AppError Unit) (signalled env w) := by
  have hwait : waitForShutdownSignal env w = (.ok (), (waitForShutdownSignal env w).2) := rfl
  exact (Prog.bind_ok hwait).trans (Prog.bind_ok (trace_eq env _ _ _))

end Run

/-- How `run` has ended. -/
def Main.outcome : Main → Option (Outcome AppError Unit)
  | .finished _ => some (.ok ())
  | .failed err => some (.err err)
  | _ => none

namespace Server

variable {env : Env} {config : Config} {o : Outcome AppError Unit} {w : World}
  {s s' : Server} {a : Act}

/-- The step gets the answer that `env` gives. -/
def answers (env : Env) (s : Server) : Act → Bool
  | .bind => env.bind s.listeners.length = none
  | .main (.bindFails source) => env.bind s.listeners.length = some source
  | .main .join =>
    match s.main with
    | .joining k => env.joinError k = none
    | _ => true
  | .main (.joinFails message) =>
    match s.main with
    | .joining k => env.joinError k = some message
    | _ => true
  | _ => true

/-- One step of one task, answered by `env`. -/
def stepAs (env : Env) (s : Server) (a : Act) : Option Server :=
  if answers env s a then s.step a else none

/-- **What is left to do** of `run`, in order. -/
def left (env : Env) (config : Config) (s : Server) : Prog World AppError Unit :=
  match s.main with
  | .binding => do
    Run.spawnListeners env s.listeners.length (config.listeners.drop s.listeners.length)
    Run.waitForShutdownSignal env
    Run.shutdown env config
  | .waiting => do
    Run.waitForShutdownSignal env
    Run.shutdown env config
  | .joining k => do
    Run.joinListeners env k (config.listeners.drop k)
    Run.drained env config
  | .draining _ | .drained | .timedOut => Run.drained env config
  | .finished _ => pure ()
  | .failed err => Prog.throw err

/-- The invariant: the listeners are bound in their order, and what is left ends as the
whole does. -/
structure Left (env : Env) (config : Config) (o : Outcome AppError Unit)
    (s : Server) : Prop where
  length : s.listeners.length ≤ config.listeners.length
  toBind : s.toBind = (config.listeners.drop s.listeners.length).map (·.listen)
  bound : s.main ≠ .binding → (∀ err, s.main ≠ .failed err) → s.toBind = []
  rest : ∃ w, (left env config s w).1 = o

theorem left_init (env : Env) (config : Config) (w : World) :
    Left env config (Run.serving env config w).1 (init (config.listeners.map (·.listen))) where
  length := Nat.zero_le _
  toBind := rfl
  bound := fun h => absurd rfl h
  rest := ⟨w, rfl⟩

/-- All listeners are bound. -/
theorem Left.all (hs : Left env config o s) (hb : s.main ≠ .binding)
    (hf : ∀ err, s.main ≠ .failed err) : s.listeners.length = config.listeners.length := by
  have hdrop : config.listeners.drop s.listeners.length = [] := by
    have ht := hs.toBind
    rw [hs.bound hb hf] at ht
    exact List.map_eq_nil_iff.1 ht.symm
  have hle := List.drop_eq_nil_iff.1 hdrop
  have := hs.length
  omega

/-- What is left depends on where `run` is, and on how many listeners are bound. -/
theorem left_congr (hl : s'.listeners.length = s.listeners.length)
    (hm : s'.main = s.main ∨ ∃ x y, s.main = .draining x ∧ s'.main = .draining y) :
    left env config s' = left env config s := by
  unfold left
  rcases hm with hm | ⟨x, y, hx, hy⟩
  · rw [hm, hl]
  · rw [hx, hy]

theorem wake_cases (m : Main) : m.wake = m ∨ ∃ x y, m = .draining x ∧ m.wake = .draining y := by
  unfold Main.wake
  split
  · exact Or.inr ⟨_, _, rfl, rfl⟩
  · exact Or.inr ⟨_, _, rfl, rfl⟩
  · exact Or.inl rfl

/-- The listener that is bound next. -/
theorem drop_of_toBind {listeners : List ListenerConfig} {n : ℕ} {addr : SocketAddr} {rest : List SocketAddr}
    (h : addr :: rest = (listeners.drop n).map (·.listen)) :
    ∃ listener, listener ∈ listeners ∧ listeners.drop n = listener :: listeners.drop (n + 1) ∧
      addr = listener.listen ∧ rest = (listeners.drop (n + 1)).map (·.listen) := by
  cases hd : listeners.drop n with
  | nil =>
    rw [hd] at h
    cases h
  | cons listener ls =>
    have htail : listeners.drop (n + 1) = ls := by
      rw [← List.drop_drop, hd, List.drop_succ_cons, List.drop_zero]
    rw [hd, List.map_cons, List.cons.injEq] at h
    have hmem : listener ∈ listeners.drop n := hd ▸ List.mem_cons_self
    refine ⟨listener, List.mem_of_mem_drop hmem, ?_, h.1, ?_⟩
    · rw [htail]
    · rw [htail]
      exact h.2

/-! ## Every step keeps the outcome -/

variable (hup : ∀ l ∈ config.listeners, ∃ up, parseUpstream env.http l.upstream = .ok up)

include hup

theorem left_bind (hs : Left env config o s) {addr : SocketAddr} {rest : List SocketAddr}
    (hm : s.main = .binding) (ht : s.toBind = addr :: rest)
    (hb : env.bind s.listeners.length = none) :
    Left env config o { s with toBind := rest, listeners := s.listeners ++ [.select] } := by
  obtain ⟨listener, hmem, hdrop, -, hrest⟩ := drop_of_toBind (ht ▸ hs.toBind)
  obtain ⟨up, hp⟩ := hup listener hmem
  obtain ⟨w, hw⟩ := hs.rest
  have hlen : (s.listeners ++ [Listener.select]).length = s.listeners.length + 1 := by simp
  have hlt : s.listeners.length < config.listeners.length := by
    by_contra hge
    rw [List.drop_eq_nil_of_le (by omega)] at hdrop
    cases hdrop
  refine ⟨?_, ?_, fun h => absurd hm h, ⟨Run.bound env listener up w, ?_⟩⟩
  · rw [hlen]
    exact hlt
  · rw [hlen]
    exact hrest
  · rw [← hw]
    unfold left
    simp only [hm, hlen]
    rw [hdrop, Prog.bind_congr (Run.spawnListeners_bound hp hb w)]

theorem left_next (hs : Left env config o s) {b : MainAct} {m : Main} {sh : Bool}
    (ha : answers env s (.main b) = true) (h : s.main.next s b = some m) :
    Left env config o { s with main := m, shutdown := sh } := by
  have hall := hs.all
  have hbound := hs.bound
  obtain ⟨w, hw⟩ := hs.rest
  unfold left at hw
  have hn := next_some h
  unfold answers at ha
  generalize s.main = m₀ at hn hw hall hbound ha
  -- a step to where no bind is left
  have hgo : ∀ {m' : Main} (w' : World), m₀ ≠ .binding → (∀ err, m₀ ≠ .failed err) →
      (left env config { s with main := m', shutdown := sh } w').1 = o →
      Left env config o { s with main := m', shutdown := sh } :=
    fun _ hb hf hrest => ⟨hs.length, hs.toBind, fun _ _ => hbound hb hf, ⟨_, hrest⟩⟩
  cases hn with
  | bindFails source addr ht =>
    obtain ⟨rest, ht⟩ := List.head?_eq_some_iff.1 ht
    obtain ⟨listener, hmem, hdrop, rfl, -⟩ := drop_of_toBind (ht ▸ hs.toBind)
    obtain ⟨up, hp⟩ := hup listener hmem
    have hb : env.bind s.listeners.length = some source := by simpa using ha
    refine ⟨hs.length, hs.toBind, fun _ hf => absurd rfl (hf _), ⟨w, ?_⟩⟩
    rw [← hw]
    dsimp only
    rw [hdrop, Run.spawnListeners_failed hp hb]
    rfl
  | ready ht =>
    refine ⟨hs.length, hs.toBind, fun _ _ => ht, ⟨w, ?_⟩⟩
    have hdrop : config.listeners.drop s.listeners.length = [] := by
      have htoBind := hs.toBind
      rw [ht] at htoBind
      exact List.map_eq_nil_iff.1 htoBind.symm
    rw [← hw]
    dsimp only
    rw [hdrop]
    rfl
  | signal =>
    refine hgo (Run.signalled env w) (by simp) (by simp) ?_
    rw [← hw]
    exact congrArg Prod.fst (Run.signalled_eq env config w).symm
  | join k hk =>
    have hlt := (List.getElem?_eq_some_iff.1 hk).1
    rw [hall (by simp) (by simp)] at hlt
    have hj : env.joinError k = none := by simpa using ha
    refine hgo w (by simp) (by simp) ?_
    rw [← hw]
    dsimp only
    rw [List.drop_eq_getElem_cons hlt, Run.joinListeners, hj]
    rfl
  | joinFails k message hk =>
    have hlt := (List.getElem?_eq_some_iff.1 hk).1
    rw [hall (by simp) (by simp)] at hlt
    have hj : env.joinError k = some message := by simpa using ha
    refine hgo w (by simp) (by simp) ?_
    rw [← hw]
    dsimp only
    rw [List.drop_eq_getElem_cons hlt, Run.joinListeners, hj]
    rfl
  | startDrain =>
    refine hgo w (by simp) (by simp) ?_
    rw [← hw]
    dsimp only
    rw [hall (by simp) (by simp), List.drop_length]
    rfl
  | load_zero h0 | load h0 | create | ready_at_once | park | resume | timeout v =>
    exact hgo w (by simp) (by simp) hw
  | cleanup | cleanup_late =>
    refine hgo w (by simp) (by simp) ?_
    rw [← hw]
    exact (Run.drained_ok env config w).symm

/-- **Every step of every task keeps the outcome** of what is left. -/
theorem left_step (hs : Left env config o s) (h : stepAs env s a = some s') :
    Left env config o s' := by
  obtain ⟨ha, h⟩ := Option.ite_none_right_eq_some.1 h
  -- what the other tasks do does not touch it
  have hother : ∀ t : Server, t.toBind = s.toBind → t.listeners.length = s.listeners.length →
      (t.main = s.main ∨ ∃ x y, s.main = .draining x ∧ t.main = .draining y) →
      Left env config o t := by
    intro t ht hl hm
    refine ⟨?_, ?_, fun hb hf => ?_, ?_⟩
    · rw [hl]
      exact hs.length
    · rw [ht, hl]
      exact hs.toBind
    · rw [ht]
      rcases hm with hm | ⟨x, y, hx, -⟩
      · rw [hm] at hb hf
        exact hs.bound hb hf
      · exact hs.bound (by simp [hx]) (by simp [hx])
    · rw [left_congr hl hm]
      exact hs.rest
  rcases step_cases h with ⟨addr, rest, rfl, hm, ht, rfl⟩ | ⟨b, m, rfl, hm, rfl⟩ |
    ⟨l, b, ls, rfl, hls, rfl⟩ | ⟨c, b, cs, rfl, hcs, rfl⟩
  · have hb : env.bind s.listeners.length = none := by simpa [answers] using ha
    exact left_bind hup hs hm ht hb
  · exact left_next hup hs ha hm
  · exact hother _ rfl (length_move hls) (Or.inl rfl)
  · refine hother _ rfl rfl ?_
    dsimp only
    split
    · exact wake_cases s.main
    · exact Or.inl rfl

/-! ## Some interleaving ends -/

omit hup

/-- `run` has ended. -/
def Over (s : Server) : Prop := ∃ o, s.main.outcome = some o

/-- The signal is sent, and the listener tasks from task `k` on are in their loops. -/
structure Joining (k : ℕ) (s : Server) : Prop where
  main : s.main = .joining k
  shutdown : s.shutdown = true
  select : ∀ l, k ≤ l → ∀ x, s.listeners[l]? = some x → x = .select

theorem stepAs_main {b : MainAct} {m : Main} (ha : answers env s (.main b) = true)
    (h : s.main.next s b = some m) :
    stepAs env s (.main b) = some { s with main := m, shutdown := s.shutdown || b = .signal } := by
  rw [stepAs, if_pos ha, step, h]
  rfl

theorem stepAs_listener {l : ℕ} {b : ListenerAct} {x y : Listener} (hx : s.listeners[l]? = some x)
    (hy : x.next s.shutdown b = some y) : stepAs env s (.listener l b) =
      some { s with listeners := s.listeners.set l y, conns := s.conns ++ b.spawned } := by
  have ha : answers env s (.listener l b) = true := rfl
  rw [stepAs, if_pos ha]
  exact listener_step hx hy

/-- The listener tasks end as they are asked to, one after the other. -/
theorem reaches_joined (n : ℕ) (k : ℕ) (s : Server) (hs : Joining k s)
    (hn : s.listeners.length = k + n) : Reaches (stepAs env) s Over := by
  induction n generalizing s k with
  | zero =>
    have h₁ : s.main.next s .startDrain = some (.draining .load) := by
      rw [hs.main]
      exact if_pos hn.symm
    refine .cons (stepAs_main rfl h₁) (.cons (stepAs_main (b := .timeout) rfl rfl) ?_)
    exact .cons (stepAs_main (b := .cleanup) rfl rfl) (.here ⟨.ok (), rfl⟩)
  | succ n ih =>
    have hk : k < s.listeners.length := by omega
    have hx : s.listeners[k]? = some .select := by
      have hx := List.getElem?_eq_getElem hk
      rw [hx, hs.select k le_rfl _ hx]
    cases hj : env.joinError k with
    | none =>
      have hy : Listener.next s.shutdown .breakLoop .select = some (.ended true) := by
        rw [hs.shutdown]
        rfl
      refine .cons (stepAs_listener hx hy) ?_
      set t : Server := { s with listeners := s.listeners.set k (.ended true), conns := _ } with ht
      have htk : t.listeners[k]? = some (.ended true) := List.getElem?_set_self hk
      have hnext : t.main.next t .join = some (.joining (k + 1)) := by
        rw [show t.main = .joining k from hs.main]
        exact if_pos htk
      have ha : answers env t (.main .join) = true := by
        have hm : t.main = .joining k := hs.main
        simp [answers, hm, hj]
      refine .cons (stepAs_main ha hnext) (ih (k + 1) _ ⟨rfl, ?_, ?_⟩ ?_)
      · simp [ht, hs.shutdown]
      · intro l hl x hlx
        have hne : k ≠ l := by omega
        rw [show (s.listeners.set k (.ended true))[l]? = s.listeners[l]? from
          List.getElem?_set_ne hne] at hlx
        exact hs.select l (by omega) x hlx
      · show (s.listeners.set k _).length = _
        rw [List.length_set]
        omega
    | some message =>
      have hy : Listener.next s.shutdown .panic .select = some (.ended false) := rfl
      refine .cons (stepAs_listener hx hy) ?_
      set t : Server := { s with listeners := s.listeners.set k (.ended false), conns := _ } with ht
      have htk : t.listeners[k]? = some (.ended false) := List.getElem?_set_self hk
      have hm : t.main = .joining k := hs.main
      have hnext : t.main.next t (.joinFails message) = some (.failed (.listenerTask message)) := by
        rw [hm]
        exact if_pos htk
      have ha : answers env t (.main (.joinFails message)) = true := by
        simp [answers, hm, hj]
      exact .cons (stepAs_main ha hnext) (.here ⟨_, rfl⟩)

/-- The listeners are bound one after the other, until a bind fails. -/
theorem reaches_over (rest : List SocketAddr) (s : Server) (ht : s.toBind = rest)
    (hm : s.main = .binding) (hl : ∀ x ∈ s.listeners, x = .select) : Reaches (stepAs env) s Over := by
  induction rest generalizing s with
  | nil =>
    have h₁ : s.main.next s .ready = some .waiting := by
      rw [hm]
      exact if_pos ht
    refine .cons (stepAs_main rfl h₁) (.cons (stepAs_main (b := .signal) rfl rfl) ?_)
    refine reaches_joined s.listeners.length 0 _ ⟨rfl, by simp, ?_⟩ (Nat.zero_add _).symm
    exact fun l _ x hx => hl x (List.mem_of_getElem? hx)
  | cons addr rest ih =>
    cases hb : env.bind s.listeners.length with
    | none =>
      have h₁ : stepAs env s .bind =
          some { s with toBind := rest, listeners := s.listeners ++ [.select] } := by
        simp [stepAs, answers, hb, step, hm, ht]
      refine .cons h₁ (ih _ rfl hm fun x hx => ?_)
      rcases List.mem_append.1 hx with hx | hx
      · exact hl x hx
      · exact List.mem_singleton.1 hx
    | some source =>
      have h₁ : s.main.next s (.bindFails source) = some (.failed (.bindFailed addr source)) := by
        rw [hm]
        show s.toBind.head?.map _ = _
        rw [ht]
        rfl
      have ha : answers env s (.main (.bindFails source)) = true := by simp [answers, hb]
      exact .cons (stepAs_main ha h₁) (.here ⟨_, rfl⟩)

theorem outcome_of_left (hs : Left env config o s) {o' : Outcome AppError Unit}
    (h : s.main.outcome = some o') : o' = o := by
  obtain ⟨w, hw⟩ := hs.rest
  unfold left at hw
  cases hm : s.main with
  | finished late =>
    rw [hm] at h hw
    cases h
    exact hw
  | failed err =>
    rw [hm] at h hw
    cases h
    exact hw
  | _ =>
    rw [hm] at h
    cases h

/-- **The sequential program ends as every interleaving ends** that gets the same answers,
and some interleaving ends so. -/
theorem ends_alike {config : Config} (hv : config.validate env.http = .ok ()) (w : World)
    (o : Outcome AppError Unit) : (Run.serving env config w).1 = o ↔
      Reaches (stepAs env) (init (config.listeners.map (·.listen))) fun t =>
        t.main.outcome = some o := by
  have hup : ∀ l ∈ config.listeners, ∃ up, parseUpstream env.http l.upstream = .ok up :=
    fun l hl => ((validate_ok.1 hv).2 l hl).2
  have hinit := left_init env config w
  have hkeep : ∀ s a s', Left env config (Run.serving env config w).1 s →
      stepAs env s a = some s' → Left env config (Run.serving env config w).1 s' :=
    fun _ _ _ => left_step hup
  constructor
  · rintro rfl
    have hover : Reaches (stepAs env) (init (config.listeners.map (·.listen))) Over :=
      reaches_over _ _ rfl rfl fun x hx => by cases hx
    refine (hover.inv hkeep hinit).trans ?_
    rintro t ⟨⟨o, ho⟩, hleft⟩
    exact .here (outcome_of_left hleft ho ▸ ho)
  · rintro ⟨as, t, he, ho⟩
    exact (outcome_of_left (exec_inv_all hkeep hinit he) ho).symm

/-- The second listener task of two panics. -/
def panicEnv : Env := { Run.calm with joinError := fun k => if k = 1 then some "panic".toList else none }

theorem ends_alike_panic : twoPorts.validate panicEnv.http = .ok () ∧
    Reaches (stepAs panicEnv) (init (twoPorts.listeners.map (·.listen))) fun t =>
      t.main.outcome = some (.err (.listenerTask "panic".toList)) := by
  have hv : twoPorts.validate panicEnv.http = .ok () := by decide +kernel
  exact ⟨hv, (ends_alike hv ⟨fun _ => .absent, []⟩ _).1 (by decide +kernel)⟩

end Server

end Retrotls
