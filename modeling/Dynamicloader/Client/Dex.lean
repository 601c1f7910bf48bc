import Dynamicloader.Client.Model
import Dynamicloader.Service.Model
import Dynamicloader.Xloader.Reply
/-!
# Client — the probed and the prepared dex file

The service prepares the dex file that `getDexPath` names, the client looks
for the one `isDexOutputCache` names. Both turn the slashes of the path into
at signs, the service character by character and before the rest is added,
the client byte by byte and afterwards; in UTF-8 that comes to the same. The
two names differ in the cache directory they start with: the client's prefix
for all versions that do not begin with a 2 ends in `arm`, without the slash
the other prefix has.
-/

namespace Dynamicloader

namespace Client

open Memory
open Loader (strLenLimit)
open Xloader (getBytes getBytes_append utf8EncodeChar_ascii toNat_ofNat_of_ascii
  toNat_eq_of_mem_utf8EncodeChar)
open Xloaderd (ascii)

/-! ## Slashes in encoded text -/

/-- What the loop of the client writes for a byte. -/
def toAt (b : UInt8) : UInt8 := if b = 47 then 64 else b

/-- Replacing in the bytes is replacing in the characters. -/
theorem map_toAt_utf8EncodeChar (c : Char) :
    (String.utf8EncodeChar c).map toAt =
      String.utf8EncodeChar (if c = '/' then '@' else c) := by
  by_cases hslash : c = '/'
  · subst hslash
    decide
  · rw [if_neg hslash]
    refine (List.map_congr_left fun b hb => if_neg ?_).trans (List.map_id _)
    rintro rfl
    exact hslash (Char.toNat_inj.mp (toNat_eq_of_mem_utf8EncodeChar hb (by decide)))

theorem map_toAt_flatMap (cs : List Char) :
    (cs.flatMap String.utf8EncodeChar).map toAt =
      (cs.map fun c => if c = '/' then '@' else c).flatMap String.utf8EncodeChar := by
  induction cs with
  | nil => rfl
  | cons c cs ih => rw [List.flatMap_cons, List.map_append, map_toAt_utf8EncodeChar, ih]; rfl

/-- Text that begins with the bytes of ASCII characters begins with these characters. -/
theorem prefix_of_ascii {p : List Char} (hp : ∀ c ∈ p, c.toNat < 128) :
    ∀ {cs : List Char}, ascii p <+: cs.flatMap String.utf8EncodeChar → p <+: cs := by
  induction p with
  | nil => exact fun _ => List.nil_prefix
  | cons d p ih =>
    intro cs h
    have hd : d.toNat < 128 := hp d (by simp)
    cases cs with
    | nil => simp [ascii] at h
    | cons c cs =>
      rw [List.flatMap_cons] at h
      -- the first byte is below 128, so it is the whole of the first character
      obtain ⟨b, bs, hbs⟩ := List.exists_cons_of_ne_nil (String.utf8EncodeChar_ne_nil (c := c))
      have hfirst : UInt8.ofNat d.toNat = b := by
        rw [hbs, ascii, List.map_cons, List.cons_append, List.cons_prefix_cons] at h
        exact h.1
      have heq : c.toNat = d.toNat := by
        rw [← toNat_ofNat_of_ascii hd, hfirst]
        refine toNat_eq_of_mem_utf8EncodeChar (by rw [hbs]; exact List.mem_cons_self) ?_
        rw [← hfirst, toNat_ofNat_of_ascii hd]
        exact hd
      rw [utf8EncodeChar_ascii (heq ▸ hd), ascii, List.map_cons, List.singleton_append,
        List.cons_prefix_cons] at h
      rw [Char.toNat_inj.mp heq, List.cons_prefix_cons]
      exact ⟨rfl, ih (fun b hb => hp b (by simp [hb])) h.2⟩

/-! ## The buffer -/

/-- **What the loop does**: the string from `tmp` on loses its slashes, what
stands before it stays. -/
theorem replaceSlashes_spec {k : ℕ} (w : List UInt8) : ∀ (v : Memory k) (tmp : ℕ),
    HoldsAt v tmp (w ++ [0]) → 0 ∉ w →
      ∃ v', replaceSlashes v tmp = some v' ∧ HoldsAt v' tmp (w.map toAt ++ [0]) ∧
        ∀ i < tmp, v'[i]? = v[i]? := by
  induction w with
  | nil =>
    intro v tmp h _
    obtain ⟨hlt, hv⟩ := Vector.getElem?_eq_some_iff.mp (holdsAt_singleton.mp h)
    refine ⟨v, ?_, h, fun i _ => rfl⟩
    rw [replaceSlashes, dif_pos hlt, if_pos hv]
  | cons b w ih =>
    intro v tmp h h0
    obtain ⟨hb, hw⟩ := holdsAt_cons.mp h
    obtain ⟨hlt, hv⟩ := Vector.getElem?_eq_some_iff.mp hb
    have hb0 : v[tmp] ≠ 0 := by
      rw [hv]
      rintro rfl
      exact h0 List.mem_cons_self
    -- in both branches the loop leaves `toAt b` at `tmp`
    have hset : (if v[tmp] = 47 then v.set tmp 64 else v) = v.set tmp (toAt b) := by
      rw [hv, toAt]
      split
      · rfl
      · rw [← hv, Vector.set_getElem_self]
    have hrest := hw.set hlt (toAt b) (.inl (Nat.lt_succ_self tmp))
    obtain ⟨v', hv', hheld, hframe⟩ := ih (v.set tmp (toAt b)) (tmp + 1) hrest
      (fun hmem => h0 (List.mem_cons_of_mem b hmem))
    refine ⟨v', ?_, ?_, ?_⟩
    · rw [replaceSlashes, dif_pos hlt, if_neg hb0, hset, hv']
    · refine holdsAt_cons.mpr ⟨?_, hheld⟩
      rw [hframe tmp (Nat.lt_succ_self tmp), Vector.getElem?_set_self]
    · intro i hi
      rw [hframe i (by omega), Vector.getElem?_set_ne hlt (by omega)]

/-- The name the client gives the dex file of `apkPath`. -/
def probed (sdk apkPath : List UInt8) : List UInt8 :=
  dalvikCachePrefix sdk ++ (apkPath.tail ++ dalvikCachePostfix).map toAt

theorem zero_notMem_dalvikCachePrefix (sdk : List UInt8) : 0 ∉ dalvikCachePrefix sdk := by
  unfold dalvikCachePrefix
  split <;> decide

theorem length_dalvikCachePrefix_lt (sdk : List UInt8) :
    (dalvikCachePrefix sdk).length < strLenLimit := by
  unfold dalvikCachePrefix
  split <;> decide

/-- The buffer after the `strcpy` holds the prefix; the rest is appended to it. -/
theorem dexPath_eq (sdk rest : List UInt8) :
    ∃ v : Memory strLenLimit, HoldsAt v 0 (dalvikCachePrefix sdk ++ [0]) ∧
      dexPath sdk (47 :: rest) = (strcat v rest).bind fun v =>
        (strcat v dalvikCachePostfix).bind fun v =>
          replaceSlashes v (dalvikCachePrefix sdk).length := by
  have hfits : 0 + (dalvikCachePrefix sdk).length < strLenLimit := by
    rw [Nat.zero_add]
    exact length_dalvikCachePrefix_lt sdk
  refine ⟨_, holdsAt_store (Vector.replicate strLenLimit 0) 0 (dalvikCachePrefix sdk ++ [0]) ?_, ?_⟩
  · rw [List.length_append, List.length_singleton]
    omega
  · rw [dexPath, strcpy_of_fits hfits]
    rfl

theorem length_probed (sdk rest : List UInt8) :
    (probed sdk (47 :: rest)).length =
      (dalvikCachePrefix sdk).length + rest.length + dalvikCachePostfix.length := by
  rw [probed, List.length_append, List.length_map, List.length_append, List.tail_cons]
  omega

theorem zero_notMem_map_toAt {w : List UInt8} (h0 : 0 ∉ w) : 0 ∉ w.map toAt := by
  intro hmem
  obtain ⟨b, hb, hb0⟩ := List.mem_map.mp hmem
  unfold toAt at hb0
  split at hb0
  · exact absurd hb0 (by decide)
  · exact h0 (hb0 ▸ hb)

section

variable {sdk rest : List UInt8} (h0 : 0 ∉ rest)

include h0

/-- **A name that fits is built**, with every slash behind the prefix replaced. -/
theorem dexPath_of_fits (hfits : (probed sdk (47 :: rest)).length < strLenLimit) :
    ∃ v, dexPath sdk (47 :: rest) = some v ∧ cstr v 0 = probed sdk (47 :: rest) := by
  rw [length_probed] at hfits
  have hp0 := zero_notMem_dalvikCachePrefix sdk
  have hrest0 : 0 ∉ rest ++ dalvikCachePostfix := by
    rw [List.mem_append]
    exact fun h => h.elim h0 (by decide)
  obtain ⟨v₁, hv₁, heq⟩ := dexPath_eq sdk rest
  obtain ⟨v₂, hcat₂, hv₂⟩ := strcat_of_fits hv₁ hp0 (w := rest) (by omega)
  obtain ⟨v₃, hcat₃, hv₃⟩ := strcat_of_fits hv₂ (w := dalvikCachePostfix)
    (by rw [List.mem_append]; exact fun h => h.elim hp0 h0)
    (by rw [List.length_append]; exact hfits)
  rw [List.append_assoc, List.append_assoc, ← List.append_assoc rest, holdsAt_append,
    Nat.zero_add] at hv₃
  obtain ⟨v₄, hloop, hv₄, hframe⟩ := replaceSlashes_spec _ v₃ _ hv₃.2 hrest0
  refine ⟨v₄, ?_, ?_⟩
  · rw [heq, hcat₂, Option.bind_some, hcat₃, Option.bind_some, hloop]
  · have hheld : HoldsAt v₄ 0 (probed sdk (47 :: rest) ++ [0]) := by
      rw [probed, List.append_assoc, holdsAt_append, Nat.zero_add]
      refine ⟨fun i hi => ?_, hv₄⟩
      rw [hframe (0 + i) (by omega), hv₃.1 i hi]
    refine hheld.cstr_eq ?_
    rw [probed, List.mem_append]
    exact fun h => h.elim hp0 (zero_notMem_map_toAt hrest0)

/-- A name that does not fit leaves the buffer. -/
theorem dexPath_of_not_fits (hlong : strLenLimit ≤ (probed sdk (47 :: rest)).length) :
    dexPath sdk (47 :: rest) = none := by
  rw [length_probed] at hlong
  have hp0 := zero_notMem_dalvikCachePrefix sdk
  obtain ⟨v₁, hv₁, heq⟩ := dexPath_eq sdk rest
  rw [heq]
  rcases Nat.lt_or_ge ((dalvikCachePrefix sdk).length + rest.length) strLenLimit with hlt | hge
  · obtain ⟨v₂, hcat₂, hv₂⟩ := strcat_of_fits hv₁ hp0 hlt
    have hcat₃ : strcat v₂ dalvikCachePostfix = none :=
      strcat_of_not_fits hv₂ (by rw [List.mem_append]; exact fun h => h.elim hp0 h0)
        (by rw [List.length_append]; exact hlong)
    rw [hcat₂, Option.bind_some, hcat₃, Option.bind_none]
  · rw [strcat_of_not_fits hv₁ hp0 hge, Option.bind_none]

end

/-! ## The two names -/

/-- An absolute path that is not under `/system/framework/`. -/
structure ApkPath where
  text : String
  absolute : text.toList.head? = some '/'
  terminated : Char.ofNat 0 ∉ text.toList
  outside : ¬ "/system/framework/".toList <+: text.toList

/-- **The client probes what the service prepares**: its only call of `stat`
is on the name `getDexPath` computes. -/
def ProbesPrepared (sdk : List UInt8) (stat : List UInt8 → ℤ) (apk : ApkPath) : Prop :=
  ∃ dexPath ret, Service.getDexPath (some apk.text) = .ok dexPath ∧
    isDexOutputCache sdk stat (getBytes apk.text) = some ([getBytes dexPath], ret)

namespace ApkPath

variable (apk : ApkPath)

/-- The path behind its first slash. -/
def rest : List Char := apk.text.toList.tail

theorem toList_eq : apk.text.toList = '/' :: apk.rest := by
  obtain ⟨cs, hcs⟩ := List.head?_eq_some_iff.mp apk.absolute
  rw [rest, hcs, List.tail_cons]

theorem getBytes_eq : getBytes apk.text = 47 :: apk.rest.flatMap String.utf8EncodeChar := by
  rw [getBytes, apk.toList_eq, List.flatMap_cons]
  rfl

theorem zero_notMem : 0 ∉ apk.rest.flatMap String.utf8EncodeChar := by
  intro h
  obtain ⟨c, hc, hbyte⟩ := List.mem_flatMap.mp h
  have hnul : c = Char.ofNat 0 :=
    Char.toNat_inj.mp (toNat_eq_of_mem_utf8EncodeChar hbyte (by decide))
  exact apk.terminated (hnul ▸ List.mem_of_mem_tail hc)

theorem not_startsWith :
    startsWith (getBytes apk.text) (ascii "/system/framework/".toList) = false := by
  have hall : ("/system/framework/".toList.all fun c => decide (c.toNat < 128)) = true := by decide
  have hascii : ∀ c ∈ "/system/framework/".toList, c.toNat < 128 :=
    fun c hc => of_decide_eq_true (List.all_eq_true.mp hall c hc)
  rw [startsWith, beq_eq_false_iff_ne]
  intro h
  have hbytes : ascii "/system/framework/".toList <+: getBytes apk.text := by
    rw [← h]
    exact List.take_prefix _ _
  exact apk.outside (prefix_of_ascii hascii hbytes)

/-- What the service computes, in bytes. -/
theorem getDexPath_eq :
    ∃ dexPath, Service.getDexPath (some apk.text) = .ok dexPath ∧
      getBytes dexPath = dalvikCachePrefixOld ++
        ((getBytes apk.text).tail ++ dalvikCachePostfix).map toAt := by
  have hdir : getBytes "/data/dalvik-cache/" = dalvikCachePrefixOld := by decide
  have hclasses : getBytes "@classes.dex" = dalvikCachePostfix.map toAt := by decide
  refine ⟨_, by rw [Service.getDexPath, apk.toList_eq, List.map_cons], ?_⟩
  rw [getBytes_append, getBytes_append, hdir, hclasses, apk.getBytes_eq, List.tail_cons,
    List.map_append, map_toAt_flatMap, getBytes, String.toList_ofList, List.append_assoc]

end ApkPath

/-- Only the first byte of the version counts. -/
theorem dalvikCachePrefix_eq_old_iff (sdk : List UInt8) :
    dalvikCachePrefix sdk = dalvikCachePrefixOld ↔ sdk.head? = some 50 := by
  have htwo : ascii "2".toList = [50] := by decide
  have hne : dalvikCachePrefixArm ≠ dalvikCachePrefixOld := by decide
  cases sdk with
  | nil => decide
  | cons b sdk =>
    rw [dalvikCachePrefix, htwo]
    simp [propertyGet, startsWith, hne]

/-- **What the client does** with a path that is not the framework's. -/
theorem isDexOutputCache_eq (sdk : List UInt8) (stat : List UInt8 → ℤ) (apk : ApkPath) :
    isDexOutputCache sdk stat (getBytes apk.text) =
      if (probed sdk (getBytes apk.text)).length < strLenLimit then
        some ([probed sdk (getBytes apk.text)],
          if stat (probed sdk (getBytes apk.text)) < 0 then 0 else 1)
      else none := by
  rw [isDexOutputCache, if_neg (by rw [apk.not_startsWith]; exact Bool.false_ne_true),
    apk.getBytes_eq]
  split
  case isTrue hfits =>
    obtain ⟨v, hv, hcstr⟩ := dexPath_of_fits apk.zero_notMem hfits
    rw [hv, ← hcstr]
    rfl
  case isFalse hlong =>
    rw [dexPath_of_not_fits apk.zero_notMem (Nat.not_lt.mp hlong)]
    rfl

/-- **The two names agree** exactly for versions that begin with a 2, as long
as the client's buffer holds the name. -/
theorem probesPrepared_iff (sdk : List UInt8) (stat : List UInt8 → ℤ) (apk : ApkPath) :
    ProbesPrepared sdk stat apk ↔
      sdk.head? = some 50 ∧ (getBytes apk.text).length ≤ 225 := by
  obtain ⟨dexPath, hservice, hbytes⟩ := apk.getDexPath_eq
  have hlength : (probed sdk (getBytes apk.text)).length + 1 =
      (dalvikCachePrefix sdk).length + (getBytes apk.text).length + 12 := by
    rw [apk.getBytes_eq, length_probed, List.length_cons,
      show dalvikCachePostfix.length = 12 by decide]
    omega
  have hlimit : strLenLimit = 256 := rfl
  have hold : dalvikCachePrefixOld.length = 19 := by decide
  rw [ProbesPrepared, isDexOutputCache_eq, ← dalvikCachePrefix_eq_old_iff]
  constructor
  · rintro ⟨d, ret, hd, hclient⟩
    obtain rfl : dexPath = d := Except.ok.inj (hservice.symm.trans hd)
    split at hclient
    case isFalse => exact absurd hclient (by simp)
    case isTrue hfits =>
      have hname : probed sdk (getBytes apk.text) = getBytes dexPath :=
        (List.cons.inj (Prod.mk.inj (Option.some.inj hclient)).1).1
      rw [hbytes, probed] at hname
      have hdir : dalvikCachePrefix sdk = dalvikCachePrefixOld := List.append_cancel_right hname
      rw [hdir, hold] at hlength
      exact ⟨hdir, by omega⟩
  · rintro ⟨hdir, hlen⟩
    rw [hdir, hold] at hlength
    have hname : getBytes dexPath = probed sdk (getBytes apk.text) := by
      rw [hbytes, probed, hdir]
    refine ⟨dexPath, if stat (getBytes dexPath) < 0 then 0 else 1, hservice, ?_⟩
    rw [hname, if_pos (by omega)]

/-- On version 19 the client looks in the wrong place: the name it asks for,
`armdata@app@a.apk@classes.dex`, is not the one the service has prepared. -/
theorem probes_other_name :
    ∃ (sdk : List UInt8) (stat : List UInt8 → ℤ) (apk : ApkPath),
      sdk = ascii "19".toList ∧ apk.text = "/data/app/a.apk" ∧
      isDexOutputCache sdk stat (getBytes apk.text) =
        some ([ascii "/data/dalvik-cache/armdata@app@a.apk@classes.dex".toList], 0) ∧
      Service.getDexPath (some apk.text) = .ok "/data/dalvik-cache/data@app@a.apk@classes.dex" ∧
      ¬ ProbesPrepared sdk stat apk := by
  let apk : ApkPath := ⟨"/data/app/a.apk", by decide, by decide, by decide⟩
  have hprobe : isDexOutputCache (ascii "19".toList) (fun _ => -1) (getBytes apk.text) =
      some ([ascii "/data/dalvik-cache/armdata@app@a.apk@classes.dex".toList], 0) := by
    rw [isDexOutputCache_eq]
    decide
  have hprepared : Service.getDexPath (some apk.text) =
      .ok "/data/dalvik-cache/data@app@a.apk@classes.dex" := by decide
  refine ⟨ascii "19".toList, fun _ => -1, apk, rfl, rfl, hprobe, hprepared, ?_⟩
  rintro ⟨dexPath, ret, hservice, hclient⟩
  rw [hprepared] at hservice
  rw [hprobe, ← Except.ok.inj hservice] at hclient
  have hnames := (Prod.mk.inj (Option.some.inj hclient)).1
  exact absurd hnames (by decide)

end Client

end Dynamicloader
