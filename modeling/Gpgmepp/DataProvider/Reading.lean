import Gpgmepp.DataProvider.Seek
import Gpgmepp.Lib.Chunks

/-!
# Reading a `QByteArrayDataProvider` to its end

gpgme reads its data in chunks, of sizes of its own choice.  Whatever they are, what a
`QByteArrayDataProvider` delivers is the array from the position on, up to as many bytes as were
asked for altogether, and nothing else changes but the position: `readsAll`.

## Main definitions

* `delivered` — what was read in a run.
* `ReadLaw` — what a run of reads should do.
-/

namespace Gpgmepp

open StateMachine Chunks

namespace QByteArrayDataProvider

/-- The bytes that the buffers got in a run, one after the other. -/
def delivered (ts : List Called) : List UInt8 := ts.flatMap fun t => t.output.2

/-- Reads of the given sizes, with buffers. -/
def reads (sizes : List UInt64) : List Op := sizes.map (.read true)

/-- What a call should return, after the calls `pre`: it tells how many bytes it delivers.  If it
asks for bytes they are some, but no more than asked for, until all bytes from the position of
`p` on were delivered, and none after that. -/
def Delivers (p : QByteArrayDataProvider) (pre : List Called) (t : Called) : Prop :=
  t.output.1.ret.toInt = t.output.2.length ∧
    ∀ n, t.input = .read true n → n ≠ 0 →
      (delivered pre ≠ p.unread → 1 ≤ t.output.1.ret.toInt ∧ t.output.1.ret.toInt ≤ n.toNat) ∧
      (delivered pre = p.unread → t.output.1.ret.toInt = 0)

/-- What a run of reads from `p` to `p'` should do. -/
structure ReadLaw (p : QByteArrayDataProvider) (ts : List Called) (p' : QByteArrayDataProvider) :
    Prop where
  isPrefix : delivered ts <+: p.unread
  calls : Run.ForallCut (Delivers p) ts
  position : p'.mOff.toInt = p.mOff.toInt + (delivered ts).length
  array : p'.mArray = p.mArray

theorem delivered_concat (ts : List Called) (t : Called) :
    delivered (ts ++ [t]) = delivered ts ++ t.output.2 := by
  simp [delivered]

/-- What is left to be read behind some bytes. -/
theorem unread_of_position {p p' : QByteArrayDataProvider} {n : ℕ} (h0 : 0 ≤ p.mOff)
    (harray : p'.mArray = p.mArray) (hoff : p'.mOff.toInt = p.mOff.toInt + n) :
    p'.unread = p.unread.drop n := by
  have hpos := nonneg_iff_toInt.mp h0
  have hsum : p'.mOff.toInt.toNat = p.mOff.toInt.toNat + n := by omega
  simp only [unread, harray, hsum, List.drop_drop]

/-- What a run of reads has left to be read. -/
theorem ReadLaw.unread_eq {p p' : QByteArrayDataProvider} {ts : List Called} (h0 : 0 ≤ p.mOff)
    (h : ReadLaw p ts p') : p'.unread = p.unread.drop (delivered ts).length :=
  unread_of_position h0 h.array h.position

/-- **One more read** obeys the law. -/
theorem ReadLaw.concat {p m p' : QByteArrayDataProvider} {ts : List Called} {n : UInt64}
    {r : IoResult} (h0 : 0 ≤ p.mOff) (h : ReadLaw p ts m)
    (hret : r.ret.toInt = (m.unread.take n.toNat).length) (harray : p'.mArray = m.mArray)
    (hoff : p'.mOff.toInt = m.mOff.toInt + (m.unread.take n.toNat).length) :
    ReadLaw p (ts ++ [⟨m, .read true n, (r, m.unread.take n.toNat), p'⟩]) p' := by
  have hrest := h.unread_eq h0
  refine ⟨?_, Run.forallCut_concat.mpr ⟨h.calls, hret, ?_⟩, ?_, harray.trans h.array⟩
  · -- what is read comes after what was delivered
    obtain ⟨rest, hall⟩ := h.isPrefix
    rw [← hall, List.drop_left] at hrest
    rw [delivered_concat, hrest, ← hall]
    exact (List.prefix_append_right_inj _).mpr (List.take_prefix _ _)
  · rintro n' ⟨⟩ hn
    have hn' : n.toNat ≠ 0 := fun hzero => hn (UInt64.toNat.inj hzero)
    simp only [hret, List.length_take]
    constructor
    · intro hmore
      -- something is left: what was delivered is a prefix, and not all
      have hlt := h.isPrefix.length_le.lt_of_ne
        fun hlen => hmore (h.isPrefix.eq_of_length hlen)
      rw [hrest, List.length_drop]
      omega
    · intro hdone
      rw [hrest, hdone, List.drop_length]
      simp
  · rw [delivered_concat, List.length_append, hoff, h.position]
    push_cast
    omega

section Calls
variable [LibGpgError]

/-- **A run of reads** obeys the law, and delivers as much of what there is as was asked for. -/
theorem exists_reads (p : QByteArrayDataProvider) (h0 : 0 ≤ p.mOff) (sizes : List UInt64) :
    ∃ ts p', Run step p ts p' ∧ ts.map Transition.input = reads sizes ∧ ReadLaw p ts p' ∧
      delivered ts = p.unread.take (sizes.map UInt64.toNat).sum := by
  induction sizes using List.reverseRecOn with
  | nil =>
      refine ⟨[], p, .nil p, rfl, ⟨?_, Run.forallCut_nil _, ?_, rfl⟩, by simp [delivered]⟩
      · exact List.nil_prefix
      · simp [delivered]
  | append_singleton sizes n ih =>
      obtain ⟨ts, m, hrun, hinputs, hlaw, hdelivered⟩ := ih
      have hm : 0 ≤ m.mOff := by
        have hpos := nonneg_iff_toInt.mp h0
        have := hlaw.position
        exact nonneg_iff_toInt.mpr (by omega)
      obtain ⟨r, p', hread, hret, harray, hoff⟩ := read_eq hm n
      have hstep : step m (.read true n) = .ok ((r, m.unread.take n.toNat), p') := hread
      refine ⟨_, p', hrun.append (.single hstep), ?_, hlaw.concat h0 hret harray hoff, ?_⟩
      · simp [hinputs, reads]
      · rw [delivered_concat, hlaw.unread_eq h0, hdelivered, take_add_of_take]
        simp

/-- The run is determined by the sizes. -/
theorem readLaw_of_run {p p' : QByteArrayDataProvider} {ts : List Called} {sizes : List UInt64}
    (h0 : 0 ≤ p.mOff) (h : Run step p ts p') (hinputs : ts.map Transition.input = reads sizes) :
    ReadLaw p ts p' ∧ delivered ts = p.unread.take (sizes.map UInt64.toNat).sum := by
  obtain ⟨us, u, hrun, hinputs', hlaw, hdelivered⟩ := exists_reads p h0 sizes
  obtain ⟨rfl, rfl⟩ := h.eq_of_inputs hrun (hinputs.trans hinputs'.symm)
  exact ⟨hlaw, hdelivered⟩

/-- **Reading to the end.**  Reads of any sizes can be made and obey the law.  If sizes that are
not zero keep coming, after some number of reads everything from the position on was delivered.
And what is delivered depends only on how much was asked for altogether, not on the sizes. -/
theorem readsAll (p : QByteArrayDataProvider) (h0 : 0 ≤ p.mOff) (sizes : ℕ → UInt64)
    (h : ∀ n, ∃ m ≥ n, sizes m ≠ 0) :
    (∀ n, ∃ ts p', Run step p ts p' ∧
      ts.map Transition.input = reads ((List.range n).map sizes)) ∧
    (∀ n ts p', Run step p ts p' → ts.map Transition.input = reads ((List.range n).map sizes) →
      ReadLaw p ts p') ∧
    (∃ N, ∀ n ≥ N, ∀ ts p', Run step p ts p' →
      ts.map Transition.input = reads ((List.range n).map sizes) → delivered ts = p.unread) ∧
    ∀ ts us p' p'' (chunks chunks' : List UInt64), Run step p ts p' → Run step p us p'' →
      ts.map Transition.input = reads chunks → us.map Transition.input = reads chunks' →
      (chunks.map UInt64.toNat).sum = (chunks'.map UInt64.toNat).sum →
      delivered ts = delivered us := by
  refine ⟨fun n => ?_, fun n ts p' hrun hin => (readLaw_of_run h0 hrun hin).1, ?_, ?_⟩
  · obtain ⟨ts, p', hrun, hin, -⟩ := exists_reads p h0 ((List.range n).map sizes)
    exact ⟨ts, p', hrun, hin⟩
  · have hne : ∀ n, ∃ m ≥ n, (sizes m).toNat ≠ 0 := by
      intro n
      obtain ⟨m, hm, hsize⟩ := h n
      exact ⟨m, hm, fun h0 => hsize (UInt64.toNat.inj h0)⟩
    obtain ⟨N, hN⟩ := exists_le_total hne p.unread.length
    refine ⟨N, fun n hn ts p' hrun hin => ?_⟩
    have hmono := total_mono (fun m => (sizes m).toNat) hn
    rw [(readLaw_of_run h0 hrun hin).2, List.map_map]
    exact List.take_of_length_le (hN.trans hmono)
  · intro ts us p' p'' chunks chunks' hrun hrun' hin hin' hsum
    rw [(readLaw_of_run h0 hrun hin).2, (readLaw_of_run h0 hrun' hin').2, hsum]

end Calls

/-- Reads of one byte each, of three bytes from the second on. -/
theorem readsAll_threeBytes :
    letI := LibGpgError.documented
    (∀ n, ∃ ts p', Run step threeBytes ts p' ∧
      ts.map Transition.input = reads ((List.range n).map fun _ => 1)) ∧
    (∀ n ts p', Run step threeBytes ts p' →
      ts.map Transition.input = reads ((List.range n).map fun _ => 1) →
      ReadLaw threeBytes ts p') ∧
    (∃ N, ∀ n ≥ N, ∀ ts p', Run step threeBytes ts p' →
      ts.map Transition.input = reads ((List.range n).map fun _ => 1) →
      delivered ts = threeBytes.unread) ∧
    ∀ ts us p' p'' (chunks chunks' : List UInt64), Run step threeBytes ts p' →
      Run step threeBytes us p'' →
      ts.map Transition.input = reads chunks → us.map Transition.input = reads chunks' →
      (chunks.map UInt64.toNat).sum = (chunks'.map UInt64.toNat).sum →
      delivered ts = delivered us :=
  letI := LibGpgError.documented
  readsAll threeBytes (by decide) (fun _ => 1) fun n => ⟨n, Nat.le_refl n, by decide⟩

end QByteArrayDataProvider

end Gpgmepp
