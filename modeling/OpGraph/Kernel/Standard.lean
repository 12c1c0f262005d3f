import OpGraph.Kernel.Registry

/-!
# Standard kernels

The reference kernels for plain operators, and one kernel for each fused operator of the standard library.
-/

namespace OpGraph.Kernel

/-- The target of the standard kernels. -/
def standardTarget : String := "cpu"

/-- The precisions of kernels that also run quantized. -/
def quantized : List Precision := [.fp32, .fp16, .int8, .uint8]

/-- The precisions of kernels that need floats. -/
def floating : List Precision := [.fp32, .fp16]

/-- The attributes of convolutions. -/
def convFields : List Field :=
  [⟨"Kernel", .list .int64, "kernel"⟩, ⟨"Stride", .list .int64, "stride,optional"⟩,
    ⟨"Pad", .list .int64, "pad,optional"⟩, ⟨"Dilation", .list .int64, "dilation,optional"⟩,
    ⟨"Group", .int64, "group,optional"⟩, ⟨"Bias", .bool, "bias,optional"⟩]

/-- The attributes of pooling. -/
def poolFields : List Field :=
  [⟨"Kernel", .list .int64, "kernel"⟩, ⟨"Stride", .list .int64, "stride,optional"⟩,
    ⟨"Pad", .list .int64, "pad,optional"⟩, ⟨"Mode", .string, "mode,optional"⟩]

/-- The attribute of operators that work along an axis. -/
def axisField : Field :=
  ⟨"Axis", .int64, "axis,optional"⟩

/-- The attribute of operators that may add a bias. -/
def biasField : Field :=
  ⟨"Bias", .bool, "bias,optional"⟩

/-- The kernels of plain operators. -/
def plainKernels : List (String × List Precision × Params) :=
  [("conv", quantized, .record convFields),
    ("deconv", floating, .record convFields),
    ("batchnorm", floating, .record [⟨"Epsilon", .float64, "epsilon,optional"⟩]),
    ("scale", quantized, .record [biasField]),
    ("relu", quantized, .record [⟨"Slope", .float64, "slope,optional"⟩]),
    ("pool", quantized, .record poolFields),
    ("eltwise", quantized,
      .record [⟨"Operation", .string, "operation,optional"⟩, ⟨"Coeffs", .list .float64, "coeffs,optional"⟩]),
    ("dense", quantized, .record [⟨"Units", .int64, "units"⟩, biasField]),
    ("softmax", floating, .record [axisField]),
    ("concat", quantized, .record [axisField]),
    ("split", quantized, .record [axisField, ⟨"Sections", .list .int64, "sections,optional"⟩]),
    ("Identity", quantized, .absent),
    ("Dropout", floating, .record [⟨"Ratio", .float64, "ratio,optional"⟩])]

/-- The kernels of fused operators. They read the qualified attributes of their members without a record. -/
def fusedKernels : List (String × List Precision × Params) :=
  Library.standard.byPriority.map fun p => (p.name, quantized, .absent)

/-- Adds the standard kernels to a registry. -/
def Registry.registerStandard (r : Registry) : Registry × Option RegistrationError :=
  r.registerAll ((plainKernels ++ fusedKernels).map fun (op, rest) => (⟨op, standardTarget⟩, rest))

end OpGraph.Kernel
