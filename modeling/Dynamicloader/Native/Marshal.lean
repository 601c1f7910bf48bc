import Dynamicloader.Native.Model
/-!
# Native — the arguments of a hooked call

Dalvik passes arguments as words: the receiver first, a `long` or a `double`
in two words, anything else in one. The handler walks the shorty and the words
with an index each. For every list of values of the types that the shorty
names, the array it passes on has the boxes of the values, in their order,
and the words it has read are those of the arguments, each once.
-/

namespace Dynamicloader

namespace Native

/-- A value that is passed to a method; an object by its address. -/
inductive Value
  | primitive (v : Primitive)
  | object (p : UInt32)
deriving DecidableEq

/-- The character of the type. -/
def Primitive.descChar : Primitive → Char
  | .boolean _ => 'Z'
  | .char _ => 'C'
  | .float _ => 'F'
  | .byte _ => 'B'
  | .short _ => 'S'
  | .int _ => 'I'
  | .long _ => 'J'
  | .double _ => 'D'

def Value.descChar : Value → Char
  | .primitive v => v.descChar
  | .object _ => 'L'

/-- Two words, the lower one first. -/
def twoWords (x : UInt64) : List UInt32 := [.ofNat x.toNat, .ofNat (x.toNat / 2 ^ 32)]

/-- The words that a value is passed in. -/
def Primitive.words : Primitive → List UInt32
  | .boolean z => [if z then 1 else 0]
  | .char c => [c.toUInt32]
  | .float bits => [bits]
  | .byte b => [b.toInt32.toUInt32]
  | .short s => [s.toInt32.toUInt32]
  | .int i => [i.toUInt32]
  | .long j => twoWords j.toUInt64
  | .double bits => twoWords bits

def Value.words : Value → List UInt32
  | .primitive v => v.words
  | .object p => [p]

/-- The object that stands for the value. -/
def Value.boxed : Value → Obj
  | .primitive v => .box v
  | .object p => .ptr p

/-- The argument words of a call. -/
def argumentWords (receiver : Option UInt32) (vs : List Value) : List UInt32 :=
  receiver.toList ++ vs.flatMap Value.words

/-- The words `ws` stand in `args` from `i` on. -/
def WordsAt (args : ℕ → UInt32) (i : ℕ) (ws : List UInt32) : Prop :=
  ∀ k w, ws[k]? = some w → args (i + k) = w

theorem wordsAt_append {args : ℕ → UInt32} {i : ℕ} {ws ws' : List UInt32}
    (h : WordsAt args i (ws ++ ws')) :
    WordsAt args i ws ∧ WordsAt args (i + ws.length) ws' := by
  constructor
  · intro k w hw
    obtain ⟨hk, -⟩ := List.getElem?_eq_some_iff.mp hw
    exact h k w (by rwa [List.getElem?_append_left hk])
  · intro k w hw
    rw [Nat.add_assoc]
    refine h (ws.length + k) w ?_
    rwa [List.getElem?_append_right (Nat.le_add_right _ _), Nat.add_sub_cancel_left]

/-! ## One argument -/

theorem setInt_toUInt32 (value : UInt64) (word : UInt32) :
    (setInt value word).toUInt32 = word := by
  apply UInt32.toNat_inj.mp
  simp [setInt]

theorem dvmGetArgLong_twoWords {args : ℕ → UInt32} {i : ℕ} {x : UInt64}
    (h : WordsAt args i (twoWords x)) : dvmGetArgLong args i = x := by
  have hlow : args i = .ofNat x.toNat := h 0 _ rfl
  have hhigh : args (i + 1) = .ofNat (x.toNat / 2 ^ 32) := h 1 _ rfl
  rw [dvmGetArgLong, hlow, hhigh]
  apply UInt64.toNat_inj.mp
  have hlt := x.toNat_lt
  simp
  omega

/-- A value of one word is boxed as it is, whatever the upper half of the
union holds. -/
theorem dvmBoxPrimitive_eq {v : Primitive} {value : UInt64} (h : v.words = [value.toUInt32]) :
    dvmBoxPrimitive value v.descChar = .box v := by
  cases v with
  | boolean z =>
    show Obj.box (.boolean (value.toUInt32.toUInt8 != 0)) = _
    rw [← List.singleton_inj.mp h]
    cases z
    · rfl
    · rfl
  | char c =>
    show Obj.box (.char value.toUInt32.toUInt16) = _
    rw [← List.singleton_inj.mp h, UInt16.toUInt16_toUInt32]
  | float bits =>
    show Obj.box (.float value.toUInt32) = _
    rw [← List.singleton_inj.mp h]
  | byte b =>
    show Obj.box (.byte value.toUInt32.toInt32.toInt8) = _
    rw [← List.singleton_inj.mp h, Int32.toInt32_toUInt32, Int8.toInt8_toInt32]
  | short s =>
    show Obj.box (.short value.toUInt32.toInt32.toInt16) = _
    rw [← List.singleton_inj.mp h, Int32.toInt32_toUInt32, Int16.toInt16_toInt32]
  | int i =>
    show Obj.box (.int value.toUInt32.toInt32) = _
    rw [← List.singleton_inj.mp h, Int32.toInt32_toUInt32]
  | long j => exact absurd (List.cons.inj h).2 (List.cons_ne_nil _ _)
  | double bits => exact absurd (List.cons.inj h).2 (List.cons_ne_nil _ _)

/-- The words of a primitive value, one or two. -/
theorem Primitive.words_cases (v : Primitive) :
    (∃ w, v.words = [w] ∧ v.descChar ∈ ['Z', 'C', 'F', 'B', 'S', 'I']) ∨
      (∃ x, v.words = twoWords x ∧ v.descChar ∈ ['D', 'J'] ∧
        dvmBoxPrimitive x v.descChar = .box v) := by
  cases v with
  | long j =>
    refine .inr ⟨_, rfl, by simp [descChar], ?_⟩
    show Obj.box (.long j.toUInt64.toInt64) = _
    rw [Int64.toInt64_toUInt64]
  | double bits => exact .inr ⟨_, rfl, by simp [descChar], rfl⟩
  | _ => exact .inl ⟨_, rfl, by simp [descChar]⟩

theorem boxArgument_word {descChar : Char} (h : descChar ∈ ['Z', 'C', 'F', 'B', 'S', 'I'])
    (args : ℕ → UInt32) (value : UInt64) (i : ℕ) :
    boxArgument args value i descChar =
      (dvmBoxPrimitive (setInt value (args i)) descChar, 1) := by
  simp only [List.mem_cons, List.not_mem_nil, or_false] at h
  rcases h with rfl | rfl | rfl | rfl | rfl | rfl <;> rfl

theorem boxArgument_twoWords {descChar : Char} (h : descChar ∈ ['D', 'J'])
    (args : ℕ → UInt32) (value : UInt64) (i : ℕ) :
    boxArgument args value i descChar = (dvmBoxPrimitive (dvmGetArgLong args i) descChar, 2) := by
  simp only [List.mem_cons, List.not_mem_nil, or_false] at h
  rcases h with rfl | rfl <;> rfl

/-- **One argument** becomes its box, and takes its own words. -/
theorem boxArgument_eq {args : ℕ → UInt32} {i : ℕ} {v : Value} (h : WordsAt args i v.words)
    (value : UInt64) : boxArgument args value i v.descChar = (v.boxed, v.words.length) := by
  cases v with
  | object p =>
    have hword : args i = p := h 0 p rfl
    show (Obj.ptr (args i), 1) = (Obj.ptr p, 1)
    rw [hword]
  | primitive v =>
    have h : WordsAt args i v.words := h
    show boxArgument args value i v.descChar = (.box v, v.words.length)
    rcases v.words_cases with ⟨w, hw, hchar⟩ | ⟨x, hx, hchar, hbox⟩
    · have hword : args i = w := h 0 w (by rw [hw]; rfl)
      rw [boxArgument_word hchar, dvmBoxPrimitive_eq (by rw [setInt_toUInt32, hword, hw]), hw]
      rfl
    · rw [hx] at h
      rw [boxArgument_twoWords hchar, dvmGetArgLong_twoWords h, hbox, hx]
      rfl

theorem Value.knownChar (v : Value) : Native.knownChar v.descChar = true := by
  cases v with
  | object p => rfl
  | primitive v =>
    cases v <;> rfl

/-! ## The loop -/

/-- **The loop**, with the objects `done` already set: the array is filled up
with the boxes of the values that are left, and their words are read. -/
theorem boxArguments_eq {args : ℕ → UInt32} (value : ℕ → UInt64) {vs : List Value} {srcIndex : ℕ}
    (hargs : WordsAt args srcIndex (vs.flatMap Value.words)) (done : List Obj) (read : List ℕ) :
    boxArguments args value (vs.map Value.descChar)
        ⟨srcIndex, done.length, done ++ List.replicate vs.length Obj.null, read⟩ =
      some ⟨srcIndex + (vs.flatMap Value.words).length, done.length + vs.length,
        done ++ vs.map Value.boxed,
        read ++ List.range' srcIndex (vs.flatMap Value.words).length⟩ := by
  induction vs generalizing srcIndex done read with
  | nil => simp [boxArguments]
  | cons v vs ih =>
    rw [List.flatMap_cons] at hargs
    obtain ⟨hv, hvs⟩ := wordsAt_append hargs
    have hset : bridgeSetObjectArrayElement
          (done ++ List.replicate (v :: vs).length Obj.null) done.length v.boxed =
        some (done ++ [v.boxed] ++ List.replicate vs.length Obj.null) := by
      rw [bridgeSetObjectArrayElement, if_pos (by simp)]
      simp [List.replicate_succ]
    have hrest := ih hvs (done ++ [v.boxed]) (read ++ List.range' srcIndex v.words.length)
    rw [List.length_append, List.length_singleton] at hrest
    rw [List.map_cons, boxArguments, boxArgument_eq hv, v.knownChar]
    simp only [hset, bind, Option.bind, if_true, hrest]
    simp [List.range'_append_1, Nat.add_assoc, Nat.add_comm 1]

/-- **The arguments of a hooked call.** For values of the types that the
shorty names, in the words of the call, the handler calls `handleHookedMethod`
with the receiver and the boxes of the values, and it reads each argument word
once and no other. -/
theorem prepare_eq {Member Class Info Rest : Type} (V : VM Member Class)
    (mem : Memory Member Info Rest) (method : Method Rest)
    (hookInfo : BridgeHookInfo Member Info Rest) (hhooked : V.bridgeIsHooked method = true)
    (hinfo : mem.infoAt method.insns = some hookInfo) (receiver : Option UInt32)
    (hstatic : hookInfo.originalMethod.dvmIsStaticMethod = receiver.isNone) (vs : List Value)
    (hshorty : method.shorty.parameters = vs.map Value.descChar) (args : ℕ → UInt32)
    (hargs : WordsAt args 0 (argumentWords receiver vs)) (allocated : Bool)
    (value : ℕ → UInt64) :
    prepare V mem method args allocated value =
      if allocated then
        .call
          { originalReflected := hookInfo.reflectedMethod
            original := method.insns
            additionalInfo := hookInfo.additionalInfo
            thisObject := receiver.elim .null .ptr
            argsArray := vs.map Value.boxed }
          (List.range (argumentWords receiver vs).length)
      else .noArray := by
  obtain ⟨hrecv, hvs⟩ := wordsAt_append hargs
  rw [Nat.zero_add] at hvs
  have hthis : (if receiver.isNone then Obj.null else .ptr (args 0)) =
      receiver.elim .null .ptr := by
    cases receiver with
    | none => rfl
    | some this => exact congrArg Obj.ptr (hrecv 0 this rfl)
  have hread : (if receiver.isNone then [] else [0]) = List.range receiver.toList.length := by
    cases receiver with
    | none => rfl
    | some this => rfl
  have hall : List.range receiver.toList.length ++
      List.range' receiver.toList.length (vs.flatMap Value.words).length =
      List.range (argumentWords receiver vs).length := by
    have happend := @List.range'_append_1 0 receiver.toList.length
      (vs.flatMap Value.words).length
    rw [Nat.zero_add, ← List.range_eq_range', ← List.range_eq_range'] at happend
    rw [happend, argumentWords, List.length_append]
  have hloop := boxArguments_eq value hvs [] (List.range receiver.toList.length)
  rw [hall, List.nil_append, List.nil_append] at hloop
  rw [prepare, hhooked, hinfo]
  simp only [hstatic, hthis, hread, hshorty, List.length_range, List.length_map]
  cases allocated with
  | false => rfl
  | true =>
    rw [List.length_nil] at hloop
    rw [hloop]
    rfl

/-- A virtual method with an `int`, a `long` and an object for parameters. -/
def virtualMethod : Method Unit where
  accessFlags := accNative
  registersSize := 5
  outsSize := 0
  insSize := 5
  shorty := ⟨'V', ['I', 'J', 'L']⟩
  insns := 0x5000
  nativeFunc := 0x7000
  rest := ()

theorem prepare_virtual :
    let V : VM String Unit := ⟨fun _ _ => none, fun _ => 0, 0x7000⟩
    let mem : Memory String Unit Unit := fun p => if p = 0x5000 then
      some (.hookInfo ⟨{ virtualMethod with accessFlags := 0, nativeFunc := 0 }, "method", ()⟩)
      else none
    let args : ℕ → UInt32 := fun i =>
      (argumentWords (some 0x100)
        [.primitive (.int (-1)), .primitive (.long 4294967298), .object 0x200]).getD i 0xdead
    prepare V mem virtualMethod args true (fun _ => 0xffffffffffffffff) =
      .call ⟨"method", 0x5000, (), .ptr 0x100,
        [.box (.int (-1)), .box (.long 4294967298), .ptr 0x200]⟩ [0, 1, 2, 3, 4] := by
  intro V mem args
  refine prepare_eq V mem virtualMethod _ rfl rfl (some 0x100) rfl
    [.primitive (.int (-1)), .primitive (.long 4294967298), .object 0x200] rfl args ?_ true _
  intro k w hw
  show List.getD _ (0 + k) _ = w
  rw [Nat.zero_add, List.getD_eq_getElem?_getD, hw]
  rfl

end Native

end Dynamicloader
