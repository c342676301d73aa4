import Quoodle.Kernel.Texts

-- What the text that is signed says about a request.
namespace Kernel

theorem field_cancel {x y s t : List UInt8} (h : field x ++ s = field y ++ t) :
    terminated x = terminated y ∧ s = t := by
  rw [field_eq, field_eq] at h
  simp only [List.append_assoc] at h
  obtain ⟨hl, h⟩ := decimal_cancel rfl rfl h
  exact List.append_inj (List.append_cancel_left h) hl

theorem counted_cancel {m n : Nat} {x y s t : List UInt8}
    (h : counted m x ++ s = counted n y ++ t) :
    m = n ∧ terminated (x.take m) ++ s = terminated (y.take n) ++ t := by
  simp only [counted, List.append_assoc] at h
  obtain ⟨hl, h⟩ := decimal_cancel rfl rfl h
  exact ⟨hl, List.append_cancel_left h⟩

namespace Request

def paramsText (req : Request) : List UInt8 :=
  terminated req.paramsJson.toList

structure Agree (a b : Request) : Prop where
  agentSequence : a.agentSequence = b.agentSequence
  timestampUnix : a.timestampUnix = b.timestampUnix
  opcode : a.opcode = b.opcode
  commandMessageId : terminated a.commandMessageId.toList = terminated b.commandMessageId.toList
  requestId : terminated a.requestId.toList = terminated b.requestId.toList
  policyHash : terminated a.policyHash.toList = terminated b.policyHash.toList
  paramsLength : a.paramsLength = b.paramsLength
  paramsText : a.paramsText = b.paramsText

variable {a b : Request}

def tailText (req : Request) : List UInt8 :=
  ascii "\npolicy=" ++ (field req.policyHash.toList ++
    (ascii "\nreq=" ++ (field req.requestId.toList ++
      (ascii "\nts=" ++ (decimal req.timestampUnix.toNat ++ ascii "\n")))))

theorem canonicalText_eq (req : Request) : req.canonicalText =
    ascii "v1\nseq=" ++ (decimal req.agentSequence.toNat ++
      (ascii "\ncmd=" ++ (field req.commandMessageId.toList ++
        (ascii "\nop=" ++ (decimal req.opcode.toNat ++
          (ascii "\nparams=" ++ (counted req.paramsLength.toNat req.paramsJson.toList ++
            req.tailText))))))) := by
  simp only [canonicalText, tailText, field, List.append_assoc]

theorem buildCanonicalRequest_eq (req : Request) :
    req.buildCanonicalRequest = some req.canonicalText := by
  have hd {n : Nat} (h : n < 10 ^ 20) : (decimal n).length ≤ 20 := length_decimal_le (by decide) h
  have hs := hd (req.agentSequence.toNat_lt.trans (by decide))
  have ho := hd (req.opcode.toNat_lt.trans (by decide))
  have hl := hd (req.paramsLength.toNat_lt.trans (by decide))
  have ht := hd (req.timestampUnix.toNat_lt.trans (by decide))
  have hc : (field req.commandMessageId.toList).length ≤ 68 := length_field_le _ (by decide)
  have hh : (field req.policyHash.toList).length ≤ 132 := length_field_le _ (by decide)
  have hr : (field req.requestId.toList).length ≤ 68 := length_field_le _ (by decide)
  have hp := length_counted_le req.paramsLength.toNat req.paramsJson.toList
  have hv : req.paramsJson.toList.length = 512 := req.paramsJson.toList_length
  have ha : (ascii "v1\nseq=").length + (ascii "\ncmd=").length + (ascii "\nop=").length +
      (ascii "\nparams=").length + (ascii "\npolicy=").length + (ascii "\nreq=").length +
      (ascii "\nts=").length + (ascii "\n").length ≤ 60 := by
    decide
  refine if_pos ?_
  simp only [canonicalText_eq, tailText, List.length_append, maxCanonical]
  omega

theorem paramsText_eq (h : a.validatePayload) :
    terminated (a.paramsJson.toList.take a.paramsLength.toNat) = a.paramsText := by
  simp only [validatePayload, Bool.and_eq_true, decide_eq_true_eq] at h
  exact terminated_take (length_terminated_le h.right)

theorem tailText_cancel (h : a.tailText = b.tailText) :
    terminated a.policyHash.toList = terminated b.policyHash.toList ∧
      terminated a.requestId.toList = terminated b.requestId.toList ∧
      a.timestampUnix = b.timestampUnix := by
  obtain ⟨hp, h⟩ := field_cancel (List.append_cancel_left h)
  obtain ⟨hr, h⟩ := field_cancel (List.append_cancel_left h)
  obtain ⟨ht, _⟩ := decimal_cancel rfl rfl (List.append_cancel_left h)
  exact ⟨hp, hr, UInt64.toNat_inj.mp ht⟩

-- Up to the parameters the text is read in one way only, and so it is from where they end.
theorem canonicalText_cancel (h : a.canonicalText = b.canonicalText) :
    a.agentSequence = b.agentSequence ∧
      terminated a.commandMessageId.toList = terminated b.commandMessageId.toList ∧
      a.opcode = b.opcode ∧ a.paramsLength = b.paramsLength ∧
      terminated (a.paramsJson.toList.take a.paramsLength.toNat) ++ a.tailText =
        terminated (b.paramsJson.toList.take b.paramsLength.toNat) ++ b.tailText := by
  rw [canonicalText_eq, canonicalText_eq] at h
  obtain ⟨hs, h⟩ := decimal_cancel rfl rfl (List.append_cancel_left h)
  obtain ⟨hc, h⟩ := field_cancel (List.append_cancel_left h)
  obtain ⟨ho, h⟩ := decimal_cancel rfl rfl (List.append_cancel_left h)
  obtain ⟨hn, h⟩ := counted_cancel (List.append_cancel_left h)
  exact ⟨UInt64.toNat_inj.mp hs, hc, UInt32.toNat_inj.mp ho, UInt32.toNat_inj.mp hn, h⟩

theorem agree_of_length_eq (ha : a.validatePayload) (hb : b.validatePayload)
    (h : a.canonicalText = b.canonicalText)
    (hl : a.paramsText.length = b.paramsText.length) : Agree a b := by
  obtain ⟨hs, hc, ho, hn, h⟩ := canonicalText_cancel h
  rw [paramsText_eq ha, paramsText_eq hb] at h
  obtain ⟨hp, h⟩ := List.append_inj h hl
  obtain ⟨hh, hr, ht⟩ := tailText_cancel h
  exact ⟨hs, ht, ho, hc, hr, hh, hn, hp⟩

theorem canonicalText_of_build {t : List UInt8} (h : a.buildCanonicalRequest = some t) :
    a.canonicalText = t :=
  (Option.ite_none_right_eq_some.mp h).right |> Option.some.inj

-- What is signed is what is executed, as long as the parameters of both requests end at the same
-- place.
theorem agree_iff_length_eq {t : List UInt8} (ha : a.validatePayload) (hb : b.validatePayload)
    (hat : a.buildCanonicalRequest = some t) (hbt : b.buildCanonicalRequest = some t) :
    Agree a b ↔ a.paramsText.length = b.paramsText.length := by
  constructor
  case mp => exact fun h => congrArg List.length h.paramsText
  case mpr =>
    apply agree_of_length_eq ha hb
    rw [canonicalText_of_build hat, canonicalText_of_build hbt]

theorem agree_resigned : Agree (pingRequest 1 "") (pingRequest 1 "c2lnbmVk") := by
  refine (agree_iff_length_eq ?_ ?_ (t := (pingRequest 1 "").canonicalText) ?_ ?_).mpr ?_
  all_goals decide +kernel

def truncatedRequest : Request := { pingRequest 1 "" with
  paramsLength := 14
  paramsJson := pad _ [0x7b, 0x7d]
  policyHash := pad _ (ascii "Z\npolicy=0:") }

-- The parameters contain the beginning of that hash.
def filledRequest : Request := { pingRequest 1 "" with
  paramsLength := 14
  paramsJson := pad _ ([0x7b, 0x7d] ++ ascii "\npolicy=11:Z") }

theorem truncatedRequest_not_agree_filledRequest :
    truncatedRequest.validatePayload ∧ filledRequest.validatePayload ∧
      truncatedRequest.buildCanonicalRequest = filledRequest.buildCanonicalRequest ∧
      truncatedRequest.buildCanonicalRequest.isSome ∧ ¬Agree truncatedRequest filledRequest := by
  refine ⟨by decide +kernel, by decide +kernel, by decide +kernel, by decide +kernel, fun h => ?_⟩
  exact absurd h.policyHash (by decide +kernel)

end Request

end Kernel
