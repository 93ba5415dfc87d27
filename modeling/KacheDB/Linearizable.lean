import KacheDB.ClientThreads
import KacheDB.Foundation.Linearization
import KacheDB.Transport

/-!
# Threads in front of one server

Any number of threads execute commands on one `KacheClient`, on as many connections as its pool
allows, and a `Service` behind all of them executes what it receives, one command at a time.  A
command may get lost on the way.  If its caller gives up, then it may still be executed at any time
later.

`Served` puts the client of `ClientThreads` and the server together, with an `Account` of what the
server was asked and has done.  A command carries the reply that it will be given, and the server
executes it only with this reply; a thread reads a value only when its command was executed.
`Served.reachable_linearizable` says that the client is linearizable: it retries nothing, so no
command is executed twice, and every command that returns a value was executed once, between its
call and its return.
-/

namespace KacheDB

open Foundation

namespace ClientThreads

/-! ## Where a thread is -/

/-- The command that a thread is executing. -/
def PC.command : PC → Option Command
  | .idle => none
  | .acquiring cmd | .checking cmd _ | .discarding cmd _ | .uncounting cmd | .entering cmd
  | .connecting cmd _ | .authenticating cmd _ | .rejecting cmd _ _ | .givingBack cmd _
  | .sending cmd _ | .reading cmd _ | .failing cmd _ _ | .releasing cmd _ _ | .putting cmd _ _
  | .closing cmd _ _ | .countingDown cmd _ => some cmd

/-- The thread has not sent its command. -/
def PC.early : PC → Bool
  | .acquiring _ | .checking _ _ | .discarding _ _ | .uncounting _ | .entering _ | .connecting _ _
  | .authenticating _ _ | .rejecting _ _ _ | .givingBack _ _ | .sending _ _ => true
  | _ => false

/-- The thread has read the value of its reply. -/
def PC.hasValue : PC → Bool
  | .releasing _ _ (.ok _) | .putting _ _ (.ok _) | .closing _ _ (.ok _)
  | .countingDown _ (.ok _) => true
  | _ => false

variable {ι : Type} [DecidableEq ι]

/-- How far one step takes the command of thread `i`. -/
inductive Phase (s : State ι) (i : ι) (s' : State ι) : Prop
  /-- A command is called. -/
  | begins (cmd : Command) (ht : s.threads i = .idle) (ht' : s'.threads i = .acquiring cmd)
      (hreturned : s'.returned = s.returned)
  /-- The command is under way. -/
  | goes (hcommand : (s'.threads i).command = (s.threads i).command)
      (hearly : (s'.threads i).early = true →
        (s.threads i).early = true ∧ ∀ cmd c, s.threads i ≠ .sending cmd c)
      (hvalue : (s'.threads i).hasValue = true → (s.threads i).hasValue = true ∨
        ∃ cmd c v, s.threads i = .reading cmd c ∧ s'.threads i = .releasing cmd c (.ok v))
      (hreturned : s'.returned = s.returned)
  /-- The command returns. -/
  | ends (cmd : Command) (out : Outcome) (hcommand : (s.threads i).command = some cmd)
      (hsend : ∀ cmd c, s.threads i ≠ .sending cmd c) (ht' : s'.threads i = .idle)
      (hvalue : ∀ v, out = .ok v → (s.threads i).hasValue = true)
      (hreturned : s'.returned = s.returned ++ [(i, cmd, out)])

variable {limit : ℕ} {s s' : State ι} {i : ι}

/-- Only the thread that takes a step moves. -/
lemma Step.threads_of_ne (h : Step limit s i s') {j : ι} (hj : j ≠ i) :
    s'.threads j = s.threads j := by
  cases h <;> exact Function.update_of_ne hj _ _

/-- A step from one place to another, behind the call of the command. -/
lemma Phase.of_put {pc pc' : PC} (ht : s.threads i = pc)
    (hthreads : s'.threads = Function.update s.threads i pc')
    (hreturned : s'.returned = s.returned) (hcommand : pc'.command = pc.command)
    (hearly : pc'.early = true → pc.early = true ∧ ∀ cmd c, pc ≠ .sending cmd c)
    (hvalue : pc'.hasValue = true → pc.hasValue = true ∨
      ∃ cmd c v, pc = .reading cmd c ∧ pc' = .releasing cmd c (.ok v)) : Phase s i s' := by
  have ht' : s'.threads i = pc' := by rw [hthreads, Function.update_self]
  subst ht
  subst ht'
  exact .goes hcommand hearly hvalue hreturned

/-- A step that returns. -/
lemma Phase.of_finish {pc : PC} {cmd : Command} {out : Outcome} (ht : s.threads i = pc)
    (hthreads : s'.threads = Function.update s.threads i .idle)
    (hreturned : s'.returned = s.returned ++ [(i, cmd, out)]) (hcommand : pc.command = some cmd)
    (hsend : ∀ cmd c, pc ≠ .sending cmd c) (hvalue : ∀ v, out = .ok v → pc.hasValue = true) :
    Phase s i s' := by
  subst ht
  exact .ends cmd out hcommand hsend (by rw [hthreads, Function.update_self]) hvalue hreturned

/-- What a step does to the command of its thread. -/
theorem Step.phase (h : Step limit s i s') : Phase s i s' := by
  cases h with
  | call cmd ht => exact .begins cmd ht (Function.update_self ..) rfl
  | getNowait cmd c queue ht hq | queueEmpty cmd ht hq | closed cmd c ht hclosed
  | healthy cmd c ping reply conn ht hping hopen hcheck
  | unhealthy cmd c ping reply conn ht hping hopen hcheck
  | discard cmd c ht | uncount cmd ht | enter cmd ht hroom
  | connected cmd c dial conn ht hconnect hpassword
  | connectAuth cmd c dial conn password ht hconnect hpassword
  | authOk cmd c password auth reply res conn ht hpassword hanswer hauth hok
  | authRefused cmd c password auth reply res conn ht hpassword hanswer hauth hok
  | reject cmd c res ht | send cmd c x conn ht hx hsend | sendRaises cmd c x e conn ht hx hsend
  | readRaises cmd c e conn ht hread | fail cmd c e ht =>
    exact .of_put ht rfl rfl rfl (by simp [PC.early]) (by simp [PC.hasValue])
  | read cmd c v conn ht hread =>
    exact .of_put ht rfl rfl rfl (by simp [PC.early]) fun _ => .inr ⟨cmd, c, v, rfl, rfl⟩
  | releaseOpen cmd c out ht hopen | releaseClosed cmd c out ht hclosed
  | queueFull cmd c out ht hfull | close cmd c out ht =>
    exact .of_put ht rfl rfl rfl (by simp [PC.early]) (by cases out <;> simp [PC.hasValue])
  | exhausted cmd ht hfull | connectFails cmd c dial e conn ht hconnect
  | authRaises cmd c password auth reply e conn ht hpassword hanswer hauth
  | giveBack cmd res ht =>
    exact .of_finish ht rfl rfl rfl (by simp) (by simp)
  | putNowait cmd c out ht hroom | countDown cmd out ht =>
    exact .of_finish ht rfl rfl rfl (by simp) (by rintro v rfl; rfl)

end ClientThreads

/-! ## The client with its server -/

open ClientThreads

/-- The answer of a service to a command. -/
def Service.reply {σ : Type} (srv : Service σ) (cmd : Command) (s : σ) : Reply × σ :=
  srv.answer (rawArgs cmd.args) s

/-- The client with its threads, the number of the call that each thread is in, or was in before,
and the account of the server. -/
structure Served (ι σ : Type) where
  client : ClientThreads.State ι
  current : ι → ℕ
  account : Account Command Reply σ

namespace Served

variable {ι σ : Type} [DecidableEq ι]

/-- A new client in front of a server. -/
def init (host : String) (port maxConnections : ℕ) (d : Bool) (password : Option String) (s : σ) :
    Served ι σ :=
  ⟨.init host port maxConnections d password, fun _ => 0, .init s⟩

/-- One step of a thread or of the server. -/
inductive Step (limit : ℕ) (srv : Service σ) (s : Served ι σ) : Served ι σ → Prop
  /-- A thread calls `_execute`. -/
  | call (i : ι) (cmd : Command) (ht : s.client.threads i = .idle) :
      Step limit srv s ⟨s.client.put i (.acquiring cmd),
        Function.update s.current i s.account.calls.length, s.account.call cmd⟩
  /-- A thread sends its command, which is on its way to the server, whether or not sending it
  raises. -/
  | sent (i : ι) (cmd : Command) (c : PoolThreads.ConnId) (client : ClientThreads.State ι)
      (ht : s.client.threads i = .sending cmd c) (h : ClientThreads.Step limit s.client i client) :
      Step limit srv s ⟨client, s.current, s.account.send (s.current i)⟩
  /-- A thread sends its command, which never arrives. -/
  | lost (i : ι) (cmd : Command) (c : PoolThreads.ConnId) (client : ClientThreads.State ι)
      (ht : s.client.threads i = .sending cmd c) (h : ClientThreads.Step limit s.client i client) :
      Step limit srv s ⟨client, s.current, s.account⟩
  /-- The server executes a command that has arrived. -/
  | execute (n : ℕ) (cmd : Command) (hflight : n ∈ s.account.inFlight)
      (hcall : s.account.calls[n]? = some cmd)
      (hreply : (srv.reply cmd s.account.state).1 = cmd.reply) :
      Step limit srv s ⟨s.client, s.current, s.account.execute srv.reply n cmd⟩
  /-- A thread takes another step within `_execute`.  It reads a value only after its command was
  executed. -/
  | own (i : ι) (client : ClientThreads.State ι) (h : ClientThreads.Step limit s.client i client)
      (hactive : s.client.threads i ≠ .idle) (hsend : ∀ cmd c, s.client.threads i ≠ .sending cmd c)
      (hread : ∀ cmd c v, s.client.threads i = .reading cmd c →
        client.threads i = .releasing cmd c (.ok v) → s.current i ∈ s.account.executed)
      (hreturned : client.returned = s.client.returned) :
      Step limit srv s ⟨client, s.current, s.account⟩
  /-- `_execute` raises. -/
  | raises (i : ι) (cmd : Command) (e : Exc) (client : ClientThreads.State ι)
      (h : ClientThreads.Step limit s.client i client)
      (hreturned : client.returned = s.client.returned ++ [(i, cmd, .error e)]) :
      Step limit srv s ⟨client, s.current, s.account⟩
  /-- `_execute` returns a value. -/
  | returns (i : ι) (cmd : Command) (v : RespValue) (client : ClientThreads.State ι)
      (h : ClientThreads.Step limit s.client i client)
      (hreturned : client.returned = s.client.returned ++ [(i, cmd, .ok v)]) :
      Step limit srv s ⟨client, s.current, s.account.finish (s.current i)⟩

/-- The states that some interleaving reaches. -/
def Reachable (limit : ℕ) (srv : Service σ) (host : String) (port maxConnections : ℕ) (d : Bool)
    (password : Option String) (s₀ : σ) (s : Served ι σ) : Prop :=
  Relation.ReflTransGen (Step limit srv) (.init host port maxConnections d password s₀) s

/-! ## The invariant -/

/-- The command of a call that has returned a value. -/
def valued : ι × Command × Outcome → Option Command
  | (_, cmd, .ok _) => some cmd
  | (_, _, .error _) => none

/-- The account is about the calls of the threads.  What a thread has not sent is not in it, and
what it has read was executed. -/
structure Inv [Fintype ι] (limit : ℕ) (d : Bool) (srv : Service σ) (s₀ : σ) (s : Served ι σ) :
    Prop where
  client : ClientThreads.Inv limit d s.client
  account : s.account.Reachable srv.reply s₀
  replies : ∀ e ∈ s.account.log, e.res = e.op.reply
  calls : ∀ i cmd, (s.client.threads i).command = some cmd →
    s.account.calls[s.current i]? = some cmd
  distinct : ∀ i j, i ≠ j → (s.client.threads i).command.isSome = true →
    (s.client.threads j).command.isSome = true → s.current i ≠ s.current j
  early : ∀ i, (s.client.threads i).early = true →
    s.current i ∉ s.account.inFlight ∧ s.current i ∉ s.account.executed
  value : ∀ i, (s.client.threads i).hasValue = true → s.current i ∈ s.account.executed
  active : ∀ i, (s.client.threads i).command.isSome = true →
    s.current i ∉ s.account.returned.map Prod.fst
  returned : s.account.returned.map (fun r => s.account.calls[r.1]?) =
    (s.client.returned.filterMap valued).map some

section Steps

variable [Fintype ι] {limit : ℕ} {d : Bool} {srv : Service σ} {s₀ : σ} {s : Served ι σ}
  {client : ClientThreads.State ι} {i : ι}

omit [DecidableEq ι] [Fintype ι] in
/-- A thread with an early command has one. -/
lemma isSome_of_early {pc : PC} (h : pc.early = true) : pc.command.isSome = true := by
  cases pc <;> first | rfl | cases h

omit [DecidableEq ι] in
/-- The calls that are known to the account were made. -/
lemma Inv.lt_of_executed (hs : Inv limit d srv s₀ s) {n : ℕ} (hn : n ∈ s.account.executed) :
    n < s.account.calls.length := by
  obtain ⟨e, he, rfl⟩ := List.mem_map.mp hn
  exact (List.getElem?_eq_some_iff.mp (hs.account.linearized.called e he)).1

omit [DecidableEq ι] in
lemma Inv.lt_of_returned (hs : Inv limit d srv s₀ s) {n : ℕ}
    (hn : n ∈ s.account.returned.map Prod.fst) : n < s.account.calls.length := by
  obtain ⟨r, hr, rfl⟩ := List.mem_map.mp hn
  obtain ⟨before, after, hlog, hmem, -⟩ := hs.account.linearized.order r hr
  refine hs.lt_of_executed ?_
  rw [Account.executed, hlog, List.map_append]
  exact List.mem_append_left _ hmem

omit [DecidableEq ι] in
/-- A thread that is executing a command is in a call. -/
lemma Inv.lt_of_active (hs : Inv limit d srv s₀ s) {j : ι}
    (hj : (s.client.threads j).command.isSome = true) :
    s.current j < s.account.calls.length := by
  obtain ⟨cmd, hcmd⟩ := Option.isSome_iff_exists.mp hj
  exact (List.getElem?_eq_some_iff.mp (hs.calls j cmd hcmd)).1

/-- A command is called. -/
lemma Inv.call (hs : Inv limit d srv s₀ s) (cmd : Command) (ht : s.client.threads i = .idle) :
    Inv limit d srv s₀ ⟨s.client.put i (.acquiring cmd),
      Function.update s.current i s.account.calls.length, s.account.call cmd⟩ where
  client := hs.client.step (.call cmd ht)
  account := hs.account.tail (.call cmd)
  replies := hs.replies
  calls j cmd' hj := by
    by_cases hji : j = i
    · subst hji
      simp only [State.put, Function.update_self, PC.command, Option.some.injEq] at hj ⊢
      simp [Account.call, hj]
    · simp only [State.put, Function.update_of_ne hji] at hj ⊢
      have hcall := hs.calls j cmd' hj
      rw [Account.call, List.getElem?_append_left (List.getElem?_eq_some_iff.mp hcall).1, hcall]
  distinct j k hjk hj hk := by
    have hlt (l : ι) (hl : l ≠ i)
        (h : (((s.client.put i (.acquiring cmd)).threads l).command).isSome = true) :
        s.current l < s.account.calls.length := by
      simp only [State.put, Function.update_of_ne hl] at h
      exact hs.lt_of_active h
    by_cases hji : j = i
    · subst hji
      have hk' := hlt k (Ne.symm hjk) hk
      simp only [Function.update_self, Function.update_of_ne (Ne.symm hjk)]
      exact hk'.ne'
    · by_cases hki : k = i
      · subst hki
        simp only [Function.update_self, Function.update_of_ne hji]
        exact (hlt j hji hj).ne
      · simp only [State.put, Function.update_of_ne hji, Function.update_of_ne hki] at hj hk ⊢
        exact hs.distinct j k hjk hj hk
  early j hj := by
    by_cases hji : j = i
    · subst hji
      simp only [Function.update_self]
      exact ⟨fun h => (hs.account.linearized.sent _ h).false,
        fun h => (hs.lt_of_executed h).false⟩
    · simp only [State.put, Function.update_of_ne hji] at hj ⊢
      exact hs.early j hj
  value j hj := by
    by_cases hji : j = i
    · subst hji
      simp [State.put, PC.hasValue] at hj
    · simp only [State.put, Function.update_of_ne hji] at hj ⊢
      exact hs.value j hj
  active j hj := by
    by_cases hji : j = i
    · subst hji
      simp only [Function.update_self]
      exact fun h => (hs.lt_of_returned h).false
    · simp only [State.put, Function.update_of_ne hji] at hj ⊢
      exact hs.active j hj
  returned := by
    refine Eq.trans (List.map_congr_left fun r hr => ?_) hs.returned
    exact List.getElem?_append_left (hs.lt_of_returned (List.mem_map_of_mem hr))

/-- The command of a thread is under way. -/
lemma Inv.goes (hs : Inv limit d srv s₀ s) (h : ClientThreads.Step limit s.client i client)
    (hcommand : (client.threads i).command = (s.client.threads i).command)
    (hearly : (client.threads i).early = true → (s.client.threads i).early = true)
    (hvalue : (client.threads i).hasValue = true → s.current i ∈ s.account.executed)
    (hreturned : client.returned = s.client.returned) :
    Inv limit d srv s₀ ⟨client, s.current, s.account⟩ := by
  have hcommands (j : ι) : (client.threads j).command = (s.client.threads j).command := by
    by_cases hji : j = i
    · exact hji ▸ hcommand
    · rw [h.threads_of_ne hji]
  refine ⟨hs.client.step h, hs.account, hs.replies, ?_, ?_, ?_, ?_, ?_, ?_⟩
  · exact fun j cmd hj => hs.calls j cmd (hcommands j ▸ hj)
  · exact fun j k hjk hj hk => hs.distinct j k hjk (hcommands j ▸ hj) (hcommands k ▸ hk)
  · intro j hj
    by_cases hji : j = i
    · exact hs.early j (hji ▸ hearly (hji ▸ hj))
    · exact hs.early j (h.threads_of_ne hji ▸ hj)
  · intro j hj
    by_cases hji : j = i
    · exact hji ▸ hvalue (hji ▸ hj)
    · exact hs.value j (h.threads_of_ne hji ▸ hj)
  · exact fun j hj => hs.active j (hcommands j ▸ hj)
  · rw [hreturned]
    exact hs.returned

omit [DecidableEq ι] in
/-- The command of a thread that is behind its sending is in flight. -/
lemma Inv.send (hs : Inv limit d srv s₀ s)
    (hactive : (s.client.threads i).command.isSome = true)
    (hearly : (s.client.threads i).early = false)
    (hflight : s.current i ∉ s.account.inFlight) (hlog : s.current i ∉ s.account.executed) :
    Inv limit d srv s₀ ⟨s.client, s.current, s.account.send (s.current i)⟩ where
  client := hs.client
  account := hs.account.tail (.send _ (hs.lt_of_active hactive) hflight hlog)
  replies := hs.replies
  calls := hs.calls
  distinct := hs.distinct
  early j hj := by
    have hji : j ≠ i := by
      rintro rfl
      exact absurd hj (by rw [hearly]; exact Bool.false_ne_true)
    obtain ⟨hflight', hlog'⟩ := hs.early j hj
    refine ⟨?_, hlog'⟩
    rw [Account.send, List.mem_cons, not_or]
    exact ⟨hs.distinct j i hji (isSome_of_early hj) hactive, hflight'⟩
  value := hs.value
  active := hs.active
  returned := hs.returned

omit [DecidableEq ι] in
/-- A command is executed. -/
lemma Inv.execute (hs : Inv limit d srv s₀ s) {n : ℕ} {cmd : Command}
    (hflight : n ∈ s.account.inFlight) (hcall : s.account.calls[n]? = some cmd)
    (hreply : (srv.reply cmd s.account.state).1 = cmd.reply) :
    Inv limit d srv s₀ ⟨s.client, s.current, s.account.execute srv.reply n cmd⟩ where
  client := hs.client
  account := hs.account.tail (.execute n cmd hflight hcall)
  replies e he := by
    rcases List.mem_append.mp he with he | he
    · exact hs.replies e he
    · obtain rfl := List.mem_singleton.mp he
      exact hreply
  calls := hs.calls
  distinct := hs.distinct
  early j hj := by
    obtain ⟨hflight', hlog'⟩ := hs.early j hj
    refine ⟨fun h => hflight' (List.mem_of_mem_erase h), ?_⟩
    rw [Account.executed_execute, List.mem_append, List.mem_singleton, not_or]
    exact ⟨hlog', fun h => hflight' (h ▸ hflight)⟩
  value j hj := by
    rw [Account.executed_execute]
    exact List.mem_append_left _ (hs.value j hj)
  active := hs.active
  returned := hs.returned

/-- A call of a thread is over. -/
lemma Inv.ends (hs : Inv limit d srv s₀ s) (h : ClientThreads.Step limit s.client i client)
    (ht : client.threads i = .idle) {account : Account Command Reply σ}
    (hreach : account.Reachable srv.reply s₀) (hcalls : account.calls = s.account.calls)
    (hflight : account.inFlight = s.account.inFlight) (hlog : account.log = s.account.log)
    (hactive : ∀ j, j ≠ i → (s.client.threads j).command.isSome = true →
      s.current j ∉ account.returned.map Prod.fst)
    (hreturned : account.returned.map (fun r => s.account.calls[r.1]?) =
      (client.returned.filterMap valued).map some) :
    Inv limit d srv s₀ ⟨client, s.current, account⟩ := by
  have hne {j : ι} (hj : (client.threads j).command.isSome = true) : j ≠ i := by
    rintro rfl
    rw [ht] at hj
    cases hj
  have hexecuted : account.executed = s.account.executed := by
    rw [Account.executed, hlog, Account.executed]
  refine ⟨hs.client.step h, hreach, ?_, ?_, ?_, ?_, ?_, ?_, ?_⟩
  · simpa only [hlog] using hs.replies
  · intro j cmd hj
    have hji : j ≠ i := hne (by rw [hj]; rfl)
    rw [h.threads_of_ne hji] at hj
    simpa only [hcalls] using hs.calls j cmd hj
  · intro j k hjk hj hk
    exact hs.distinct j k hjk (h.threads_of_ne (hne hj) ▸ hj) (h.threads_of_ne (hne hk) ▸ hk)
  · intro j hj
    have hji : j ≠ i := hne (isSome_of_early hj)
    simpa only [hflight, hexecuted] using hs.early j (h.threads_of_ne hji ▸ hj)
  · intro j hj
    have hji : j ≠ i := by
      rintro rfl
      rw [ht] at hj
      cases hj
    simpa only [hexecuted] using hs.value j (h.threads_of_ne hji ▸ hj)
  · intro j hj
    exact hactive j (hne hj) (h.threads_of_ne (hne hj) ▸ hj)
  · simpa only [hcalls] using hreturned

/-- A command that has not been sent is sent, or gets lost. -/
lemma Inv.sending (hs : Inv limit d srv s₀ s) {cmd : Command} {c : PoolThreads.ConnId}
    (ht : s.client.threads i = .sending cmd c) (h : ClientThreads.Step limit s.client i client) :
    Inv limit d srv s₀ ⟨client, s.current, s.account⟩ ∧
      (client.threads i).command.isSome = true ∧ (client.threads i).early = false := by
  rcases h.phase with ⟨cmd', ht', -, -⟩ | ⟨hcommand, hearly, hvalue, hreturned⟩ |
    ⟨cmd', out, -, hsend, -, -, -⟩
  · rw [ht] at ht'
    cases ht'
  · have hlate : (client.threads i).early = false := by
      rw [Bool.eq_false_iff]
      exact fun he => (hearly he).2 cmd c ht
    refine ⟨hs.goes h hcommand ?_ ?_ hreturned, ?_, hlate⟩
    · rw [hlate]
      exact fun he => absurd he Bool.false_ne_true
    · intro hv
      rcases hvalue hv with hv | ⟨cmd', c', v, hread, -⟩
      · exact hs.value i hv
      · rw [ht] at hread
        cases hread
    · rw [hcommand, ht]
      rfl
  · exact absurd ht (hsend cmd c)

/-- Every step preserves the invariant. -/
theorem Inv.step {s' : Served ι σ} (hs : Inv limit d srv s₀ s) (h : Step limit srv s s') :
    Inv limit d srv s₀ s' := by
  cases h with
  | call i cmd ht => exact hs.call cmd ht
  | sent i cmd c client ht h =>
    obtain ⟨hs', hactive, hlate⟩ := hs.sending ht h
    obtain ⟨hflight, hlog⟩ := hs.early i (by rw [ht]; rfl)
    exact hs'.send hactive hlate hflight hlog
  | lost i cmd c client ht h => exact (hs.sending ht h).1
  | execute n cmd hflight hcall hreply => exact hs.execute hflight hcall hreply
  | own i client h hactive hsend hread hreturned =>
    rcases h.phase with ⟨cmd, ht, -, -⟩ | ⟨hcommand, hearly, hvalue, -⟩ |
      ⟨cmd, out, -, -, -, -, hreturned'⟩
    · exact absurd ht hactive
    · refine hs.goes h hcommand (fun he => (hearly he).1) ?_ hreturned
      intro hv
      rcases hvalue hv with hv | ⟨cmd, c, v, hreading, hreleasing⟩
      · exact hs.value i hv
      · exact hread cmd c v hreading hreleasing
    · rw [hreturned'] at hreturned
      exact absurd hreturned (by simp)
  | raises i cmd e client h hreturned =>
    rcases h.phase with ⟨-, -, -, hsame⟩ | ⟨-, -, -, hsame⟩ | ⟨cmd', out, hcommand, -, ht, -, hend⟩
    · exact absurd (hsame.symm.trans hreturned) (by simp)
    · exact absurd (hsame.symm.trans hreturned) (by simp)
    · refine hs.ends h ht hs.account rfl rfl rfl (fun j _ hj => hs.active j hj) ?_
      rw [hreturned, List.filterMap_append]
      exact hs.returned.trans (by simp [valued])
  | returns i cmd v client h hreturned =>
    rcases h.phase with ⟨-, -, -, hsame⟩ | ⟨-, -, -, hsame⟩ |
      ⟨cmd', out, hcommand, -, ht, hvalue, hend⟩
    · exact absurd (hsame.symm.trans hreturned) (by simp)
    · exact absurd (hsame.symm.trans hreturned) (by simp)
    · obtain ⟨rfl, rfl⟩ : cmd' = cmd ∧ out = .ok v := by
        have hlast := List.append_cancel_left (hend.symm.trans hreturned)
        simpa using hlast
      have hactive : (s.client.threads i).command.isSome = true := by
        rw [hcommand]
        rfl
      have hexecuted := hs.value i (hvalue v rfl)
      refine hs.ends h ht (hs.account.tail (.finish _ hexecuted (hs.active i hactive))) rfl rfl rfl
        ?_ ?_
      · intro j hji hj
        rw [Account.finish, List.map_append, List.mem_append, not_or]
        refine ⟨hs.active j hj, ?_⟩
        rw [List.map_singleton, List.mem_singleton]
        exact hs.distinct j i hji hj hactive
      · rw [hreturned, List.filterMap_append, List.map_append, Account.finish, List.map_append,
          hs.returned]
        simp [valued, hs.calls i cmd' hcommand]

end Steps

/-- The invariant holds in every reachable state. -/
theorem Reachable.inv [Fintype ι] {limit : ℕ} {srv : Service σ} {host : String}
    {port maxConnections : ℕ} {d : Bool} {password : Option String} {s₀ : σ} {s : Served ι σ}
    (h : Reachable limit srv host port maxConnections d password s₀ s) :
    Inv limit d srv s₀ s := by
  induction h with
  | refl =>
    refine ⟨ClientThreads.inv_init limit host port maxConnections d password, .refl, ?_, ?_, ?_, ?_,
      ?_, ?_, rfl⟩
    · exact fun e he => absurd he List.not_mem_nil
    · rintro i cmd ⟨⟩
    · rintro i j - ⟨⟩
    · rintro i ⟨⟩
    · rintro i ⟨⟩
    · rintro i ⟨⟩
  | tail _ hstep ih => exact ih.step hstep

/-! ## Linearizability -/

/-- The runs of a service are those of its answers to commands. -/
lemma replay_reply (srv : Service σ) (cmds : List Command) (s : σ) :
    replay srv.reply cmds s = srv.answerAll (cmds.map fun cmd => rawArgs cmd.args) s := by
  induction cmds generalizing s with
  | nil => rfl
  | cons cmd cmds ih =>
    rw [replay, ih]
    rfl

/-- The threads see a server that executes one command at a time. -/
structure Linearizable (limit : ℕ) (d : Bool) (srv : Service σ) (s₀ : σ) (s : Served ι σ) :
    Prop where
  /-- The commands that were executed, in this order, are given their replies by the service. -/
  replay_eq : srv.answerAll (s.account.log.map fun e => rawArgs e.op.args) s₀ =
    (s.account.log.map fun e => e.op.reply, s.account.state)
  /-- No call is executed twice, and what is executed was called. -/
  executed_once : s.account.executed.Nodup
  executed_called : ∀ e ∈ s.account.log, s.account.calls[e.call]? = some e.op
  /-- The calls that have returned values are different calls of the commands that have. -/
  returned_once : (s.account.returned.map Prod.fst).Nodup
  returned_calls : s.account.returned.map (fun r => s.account.calls[r.1]?) =
    (s.client.returned.filterMap valued).map some
  /-- The value is that of the command's own reply. -/
  own : ∀ i cmd v, (i, cmd, .ok v) ∈ s.client.returned → cmd.reply.decoded limit d = .ok v
  /-- A call that has returned a value was executed, before every call that was made later. -/
  order : ∀ r ∈ s.account.returned, ∃ before after, s.account.log = before ++ after ∧
    r.1 ∈ before.map Executed.call ∧ ∀ e ∈ before, e.call < r.2

/-- **The client is linearizable.**  In every interleaving of the threads' steps and the server's,
whatever gets lost, fails or is executed late: the server executes one command after the other, none
of them twice, and every command that has returned a value was executed once, after its call and
before every command that was called after its return, with the reply whose value was returned. -/
theorem reachable_linearizable [Fintype ι] (limit : ℕ) (srv : Service σ) (host : String)
    (port maxConnections : ℕ) (d : Bool) (password : Option String) (s₀ : σ) (s : Served ι σ)
    (h : Reachable limit srv host port maxConnections d password s₀ s) :
    Linearizable limit d srv s₀ s := by
  have hinv := h.inv
  have hlinear := hinv.account.linearized
  refine ⟨?_, hlinear.once.of_append_left, hlinear.called, hlinear.returned_once, hinv.returned, ?_,
    hlinear.order⟩
  · have hreplay := hlinear.replay_eq
    rw [replay_reply, List.map_map] at hreplay
    refine hreplay.trans (Prod.ext ?_ rfl)
    exact List.map_congr_left hinv.replies
  · intro i cmd v hmem
    exact hinv.client.returned _ hmem v rfl

/-- An increment of the counter from 4. -/
def incr : Command :=
  ⟨[.str "INCR", .str "k"], .integer 5⟩

/-- The answer to it, in two chunks. -/
def incrAnswer : Exchange :=
  ⟨.ok (), [.chunk ⟨[58, 53], by decide⟩, .chunk ⟨[13, 10], by decide⟩]⟩

lemma incrAnswer_answers : incrAnswer.Answers (.integer 5) :=
  ⟨by decide, by simp [incrAnswer], by simp [incrAnswer]⟩

/-- One thread increments the counter and returns while another one is calling. -/
theorem reachable_linearizable_two :
    ∃ s : Served (Fin 2) ℤ,
      Reachable 2 Remote.counter "127.0.0.1" 6379 2 false none 4 s ∧
        s.client.returned = [(0, incr, .ok (.int 5))] ∧
        Linearizable 2 false Remote.counter 4 s := by
  have h₀ : Reachable 2 Remote.counter "127.0.0.1" 6379 2 false none 4
    (.init "127.0.0.1" 6379 2 false none 4 : Served (Fin 2) ℤ) := .refl
  have h₁ := h₀.tail (.call 0 incr rfl)
  have h₂ := h₁.tail (.own 0 _ (.queueEmpty incr rfl rfl) (by rintro ⟨⟩) (by rintro _ _ ⟨⟩)
    (by rintro _ _ _ ⟨⟩) rfl)
  have h₃ := h₂.tail (.own 0 _ (.enter incr rfl (by decide)) (by rintro ⟨⟩) (by rintro _ _ ⟨⟩)
    (by rintro _ _ _ ⟨⟩) rfl)
  have h₄ := h₃.tail (.own 0 _ (.connected incr 0 (.ok ()) _ rfl rfl rfl) (by rintro ⟨⟩)
    (by rintro _ _ ⟨⟩) (by rintro _ _ _ ⟨⟩) rfl)
  have h₅ := h₄.tail (.sent 0 incr 0 _ rfl (.send incr 0 incrAnswer _ rfl incrAnswer_answers rfl))
  have h₆ := h₅.tail (.call 1 incr rfl)
  have h₇ := h₆.tail (.execute 0 incr (by decide) rfl rfl)
  have h₈ := h₇.tail (.own 0 _ (.read incr 0 (.int 5) _ rfl rfl) (by rintro ⟨⟩)
    (by rintro _ _ ⟨⟩) (fun _ _ _ _ _ => List.mem_cons_self) rfl)
  have h₉ := h₈.tail (.own 0 _ (.releaseOpen incr 0 (.ok (.int 5)) rfl rfl) (by rintro ⟨⟩)
    (by rintro _ _ ⟨⟩) (by rintro _ _ _ ⟨⟩) rfl)
  have h₁₀ := h₉.tail (.returns 0 incr (.int 5) _ (.putNowait incr 0 (.ok (.int 5)) rfl
    fun h => absurd h.2 (show ¬ 2 ≤ 0 by decide)) rfl)
  exact ⟨_, h₁₀, rfl,
    reachable_linearizable 2 Remote.counter "127.0.0.1" 6379 2 false none 4 _ h₁₀⟩

end Served

end KacheDB
