import Dynamicloader.Service.Authorised
import Dynamicloader.Session.RoundTrip
import Dynamicloader.Loader.Block
import Dynamicloader.Client.Origin
/-!
# From a request to the code that runs

Five programs take part in an injection. An app has the service register a
module; the service sends a load command when the process runs; the daemon
takes the command apart and calls the loader; the loader writes a block into
the target and has the client's entry called; and the client reads the block
and loads the module. `Injection` puts them together: what each hands on is
what the next one finds.

`injected_as_requested`: for arguments that the command and the block can
carry, whatever code the client runs at the end is that of a module which a
permitted caller had registered for just this package and process, or of the
service's own.
-/

namespace Dynamicloader

open Memory (frame)
open Xloaderd (Buffer Tick Line cmds ascii)
open Loader (Mem Target Config Symbols Stack Word strLenLimit)
open Xloader (getBytes)

namespace Loader

/-- The bytes of a string in memory are determined by where it begins. -/
theorem Mem.Reads.unique {mem : Mem} {a : Word} {u w : List UInt8} (hu : mem.Reads a u)
    (hw : mem.Reads a w) : u = w := by
  have hlen : u.length = w.length := Nat.le_antisymm (hw.length_le hu) (hu.length_le hw)
  refine List.ext_getElem hlen fun i hi hi' => ?_
  have h := hu.2 i (by rw [List.length_append]; omega)
  have h' := hw.2 i (by rw [List.length_append]; omega)
  rw [List.getElem_append_left hi] at h
  rw [List.getElem_append_left hi'] at h'
  rw [← h, h']

end Loader

namespace Xloaderd

/-- While one frame is served, no other call is made. -/
theorem Serving.eq_of_mem_calls {c reply out : List UInt8} {call x : Call} {l : Line} {n : ℕ}
    (h : Serving c reply out call [] l n) (hx : x ∈ l.calls) : x = call := by
  cases h with
  | size v => cases hx
  | size' v low high h => cases hx
  | command v got rest count n hn hc h hcount hgot hv => cases hx
  | execute v hv => cases hx
  | write v size rest sent h hne => exact List.mem_singleton.mp hx
  | done v => exact List.mem_singleton.mp hx

end Xloaderd

namespace Injection

open Service

/-- The strings of the block at an address. -/
structure InfoAt (mem : Mem) (base : Word) (info : Client.XloaderInfo) : Prop where
  packageName : mem.Reads base info.packageName
  bridgePath : mem.Reads (base + 256) info.bridgePath
  modulePath : mem.Reads (base + 512) info.modulePath

theorem InfoAt.eq_of_readBack {cfg : Config} {p m : List UInt8} {mem : Mem} {base : Word}
    {info : Client.XloaderInfo} (h : InfoAt mem base info)
    (hread : Loader.ReadBack cfg p m mem base) :
    info = ⟨p, cfg.bridgePathCurrent, m⟩ := by
  obtain ⟨packageName, bridgePath, modulePath⟩ := info
  rw [Client.XloaderInfo.mk.injEq]
  exact ⟨h.packageName.unique hread.packageName, h.bridgePath.unique hread.bridgePath,
    h.modulePath.unique hread.modulePath⟩

/-- The bytes of the command that `Xloader.xload` builds for a load. -/
def command (load : Load) : List UInt8 :=
  getBytes (Xloader.xloadCommand load.packageName load.processName load.modulePath)

/-- **An injection**: from a load that the service sends to what the client,
called in the target, exchanges with the process. -/
inductive Injects (cfg : Config) (load : Load) (xs : Client.History) : Prop
  /-- The daemon reads the frame of the command in pieces, into a buffer of any
  contents, and calls `xload` with three texts; the loader calls the entry with
  one parameter; and the client reads the block there. -/
  | intro {xload : List UInt8 → List UInt8 → List UInt8 → Int32} {buf : Buffer}
      {ticks : List Tick} {p q m : List UInt8}
      (daemon : ⟨ascii "xload".toList, [p, q, m]⟩ ∈
        (Line.serve (cmds xload) ⟨⟨buf, .readSize none⟩, frame (command load), [], []⟩ ticks).calls)
      {σ : Type} {T : Target σ} {sym : Symbols} {fuel : ℕ} {cmdline : Stack} {s t : σ}
      {entry base : Word}
      (loader : Prog.Reaches T.kernel (Loader.xload cfg sym fuel cmdline p (some q) m) s
        (.calling .entry entry [base]) t)
      {info : Client.XloaderInfo} (block : InfoAt (T.mem t) base info)
      {already : Int32} {r : Option (Int32 × Int32)}
      (client : (Client.clientEntry already (some info)).Makes xs r)

/-- The load is one that a permitted caller asked for, or the service's own. -/
def Asked (cacheDir : String) (es : List Event) (load : Load) : Prop :=
  load = (systemModule cacheDir).load ∨
    ∃ caller, .addModule caller load.packageName load.processName load.modulePath ∈ es ∧
      verifyCallerPerm caller = .ok true

/-- Arguments that the command and the block can carry. -/
structure Carried (p q m : String) : Prop where
  packageName : Session.Plain p
  processName : Session.Plain q
  modulePath : Session.Plain m
  short : (Session.loadCommand p q m).length ≤ 1023
  fields : (getBytes p).length < strLenLimit ∧ (getBytes m).length < strLenLimit

/-- The daemon calls `xload` with the arguments of the load, and nothing else. -/
theorem Carried.call_eq {p q m : String} (h : Carried p q m)
    {xload : List UInt8 → List UInt8 → List UInt8 → Int32} {buf : Buffer} {ticks : List Tick}
    {call : Xloaderd.Call}
    (hcall : call ∈ (Line.serve (cmds xload)
      ⟨⟨buf, .readSize none⟩, frame (command ⟨some p, some q, some m⟩), [], []⟩ ticks).calls) :
    call = ⟨ascii "xload".toList, [getBytes p, getBytes q, getBytes m]⟩ := by
  have hcommand : command ⟨some p, some q, some m⟩ =
      Xloaderd.xloadText (getBytes p) (getBytes q) (getBytes m) := Session.loadCommand_eq p q m
  have hlen := h.short
  rw [Session.loadCommand_eq] at hlen
  rw [hcommand] at hcall
  have hdoes := Session.does_xload h.packageName.isWord h.processName.isWord h.modulePath.isWord
    hlen xload
  obtain ⟨n, hserving, -⟩ := Xloaderd.Serving.serve hdoes ticks (.size buf)
  exact hserving.eq_of_mem_calls hcall

/-- **What runs is what was asked for.** Take any run of the service and a load
command that its next event sends, with arguments that the command and the
block can carry. However the daemon gets the command, whatever the target and
its memory are and whatever the process answers to the client: the client runs
code of the load's own module only, through the bridge where it is a jar, and
the load is one that a permitted caller registered, or the service's own. -/
theorem injected_as_requested (cacheDir : String) (es : List Event) (e : Event) {p q m : String}
    (hload : ⟨some p, some q, some m⟩ ∈ (step cacheDir ((step cacheDir).run initial es) e).2)
    (hcarried : Carried p q m) {cfg : Config} {xs : Client.History}
    (h : Injects cfg ⟨some p, some q, some m⟩ xs) :
    Asked cacheDir es ⟨some p, some q, some m⟩ ∧
      Client.Disciplined ⟨getBytes p, cfg.bridgePathCurrent, getBytes m⟩ xs := by
  refine ⟨?_, ?_⟩
  · rcases requested_of_mem cacheDir es e hload with hown | ⟨mi, hmi, hrequested, -⟩
    · exact .inl hown
    · rw [hmi]
      exact .inr hrequested
  · obtain ⟨daemon, loader, block, client⟩ := h
    obtain ⟨-, hargs⟩ := Xloaderd.Call.mk.inj (hcarried.call_eq daemon)
    simp only [List.cons.injEq, and_true] at hargs
    obtain ⟨rfl, rfl, rfl⟩ := hargs
    obtain ⟨base, hbase, hholds⟩ := Loader.entry_block _ loader
    obtain ⟨rfl, -⟩ := List.cons.inj hbase
    have hread := Loader.readBack_of_holds hcarried.packageName.isWord.noNul
      hcarried.modulePath.isWord.noNul hcarried.fields.1 hcarried.fields.2 hholds
    rw [block.eq_of_readBack hread] at client
    obtain ⟨hcalls, hclosed⟩ := (Client.follows_clientEntry _ _).makes client
    exact ⟨hcalls, hclosed⟩

/-- A library is registered, loaded and run, in a process that grants all. -/
theorem injected_as_requested_library : ∃ xs, Injects ⟨true, true⟩
    ⟨some "a", some "a", some "/m.so"⟩ xs ∧
      Client.Disciplined ⟨getBytes "a", Config.bridgePathCurrent ⟨true, true⟩, getBytes "/m.so"⟩
        xs := by
  have hload : (⟨some "a", some "a", some "/m.so"⟩ : Load) ∈ (step "/c" ((step "/c").run initial
      [.addModule systemCaller (some "a") (some "a") (some "/m.so")])
      (.deliver .checkProcessHadStartedBeforeAddmodule (onlyAt 0 "a"))).2 :=
    List.mem_of_getElem? (i := 0) rfl
  have ha : Session.Plain "a" := ⟨by simp, by simp, by simp, by simp [Xloaderd.isspace]⟩
  have hm : Session.Plain "/m.so" := ⟨by simp, by simp, by simp, by simp [Xloaderd.isspace]⟩
  have hcarried : Carried "a" "a" "/m.so" := ⟨ha, ha, hm, by decide, by decide⟩
  have hcommand : command ⟨some "a", some "a", some "/m.so"⟩ =
      Xloaderd.xloadText (getBytes "a") (getBytes "a") (getBytes "/m.so") :=
    Session.loadCommand_eq "a" "a" "/m.so"
  have hdaemon : ⟨ascii "xload".toList, [getBytes "a", getBytes "a", getBytes "/m.so"]⟩ ∈
      (Line.serve (cmds fun _ _ _ => 0) ⟨⟨Vector.replicate _ 0, .readSize none⟩,
        frame (command ⟨some "a", some "a", some "/m.so"⟩), [], []⟩
        (List.replicate 40 (.move 0))).calls := by
    obtain ⟨v, hserve⟩ : ∃ v, Line.serve _ _ (List.replicate 40 (.move 0)) = _ :=
      Xloaderd.serve_frame (Session.does_xload ha.isWord ha.isWord hm.isWord (by decide)
        fun _ _ _ => 0) (Vector.replicate _ 0) (by decide)
    rw [hcommand, hserve]
    exact List.mem_singleton_self _
  obtain ⟨t, ht⟩ := Loader.lenient_asks_entry ⟨true, true⟩ (getBytes "a") (getBytes "/m.so")
    fun _ => 0
  obtain ⟨base, hbase, hholds⟩ := Loader.entry_block Loader.lenientTarget ht
  obtain ⟨rfl, -⟩ := List.cons.inj hbase
  have hread := Loader.readBack_of_holds ha.isWord.noNul hm.isWord.noNul (by decide) (by decide)
    hholds
  have hblock : InfoAt (Loader.lenientTarget.mem t) 0x201
      ⟨getBytes "a", Config.bridgePathCurrent ⟨true, true⟩, getBytes "/m.so"⟩ :=
    ⟨hread.packageName, hread.bridgePath, hread.modulePath⟩
  let client := Client.clientEntry 0
    (some ⟨getBytes "a", Config.bridgePathCurrent ⟨true, true⟩, getBytes "/m.so"⟩)
  have hclient : client.Makes (client.record Client.worksAlways ()).1
      (client.record Client.worksAlways ()).2 := Prog.record_makes client ()
  have hinjects : Injects ⟨true, true⟩ ⟨some "a", some "a", some "/m.so"⟩ _ :=
    .intro hdaemon ht hblock hclient
  exact ⟨_, hinjects, (injected_as_requested "/c" _ _ hload hcarried hinjects).2⟩

end Injection

end Dynamicloader
