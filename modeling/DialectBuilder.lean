import DialectBuilder.Types
import DialectBuilder.Ir
import DialectBuilder.Vector
import DialectBuilder.MathBuilder
import DialectBuilder.MathSemantics
import DialectBuilder.MultiReduction
import DialectBuilder.Cast
import DialectBuilder.MemRef
import DialectBuilder.SimdPadding
import DialectBuilder.Reshape
import DialectBuilder.View
import DialectBuilder.OnnxOps
import DialectBuilder.LLVMBuilder
import DialectBuilder.Offsets
import DialectBuilder.SCFBuilder
