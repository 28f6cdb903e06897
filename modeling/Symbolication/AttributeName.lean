import Symbolication.Text.Number

/-!
The names of attributes. Every 64-bit code names an attribute; those of versions 2 to 4 of the
standard have names, and one vendor name for linkage names.
-/

namespace Symbolication

structure AttributeName where
  code : UInt64
deriving DecidableEq, Repr

namespace AttributeName

def names : List (UInt64 × String) := [
  (0x00, "DW_AT_null"), (0x01, "DW_AT_sibling"), (0x02, "DW_AT_location"), (0x03, "DW_AT_name"),
  (0x09, "DW_AT_ordering"), (0x0b, "DW_AT_byte_size"), (0x0c, "DW_AT_bit_offset"),
  (0x0d, "DW_AT_bit_size"), (0x10, "DW_AT_stmt_list"), (0x11, "DW_AT_low_pc"),
  (0x12, "DW_AT_high_pc"), (0x13, "DW_AT_language"), (0x15, "DW_AT_discr"),
  (0x16, "DW_AT_discr_value"), (0x17, "DW_AT_visibility"), (0x18, "DW_AT_import"),
  (0x19, "DW_AT_string_length"), (0x1a, "DW_AT_common_reference"), (0x1b, "DW_AT_comp_dir"),
  (0x1c, "DW_AT_const_value"), (0x1d, "DW_AT_containing_type"), (0x1e, "DW_AT_default_value"),
  (0x20, "DW_AT_inline"), (0x21, "DW_AT_is_optional"), (0x22, "DW_AT_lower_bound"),
  (0x25, "DW_AT_producer"), (0x27, "DW_AT_prototyped"), (0x2a, "DW_AT_return_addr"),
  (0x2c, "DW_AT_start_scope"), (0x2e, "DW_AT_bit_stride"), (0x2f, "DW_AT_upper_bound"),
  (0x31, "DW_AT_abstract_origin"), (0x32, "DW_AT_accessibility"), (0x33, "DW_AT_address_class"),
  (0x34, "DW_AT_artificial"), (0x35, "DW_AT_base_types"), (0x36, "DW_AT_calling_convention"),
  (0x37, "DW_AT_count"), (0x38, "DW_AT_data_member_location"), (0x39, "DW_AT_decl_column"),
  (0x3a, "DW_AT_decl_file"), (0x3b, "DW_AT_decl_line"), (0x3c, "DW_AT_declaration"),
  (0x3d, "DW_AT_discr_list"), (0x3e, "DW_AT_encoding"), (0x3f, "DW_AT_external"),
  (0x40, "DW_AT_frame_base"), (0x41, "DW_AT_friend"), (0x42, "DW_AT_identifier_case"),
  (0x43, "DW_AT_macro_info"), (0x44, "DW_AT_namelist_item"), (0x45, "DW_AT_priority"),
  (0x46, "DW_AT_segment"), (0x47, "DW_AT_specification"), (0x48, "DW_AT_static_link"),
  (0x49, "DW_AT_type"), (0x4a, "DW_AT_use_location"), (0x4b, "DW_AT_variable_parameter"),
  (0x4c, "DW_AT_virtuality"), (0x4d, "DW_AT_vtable_elem_location"), (0x4e, "DW_AT_allocated"),
  (0x4f, "DW_AT_associated"), (0x50, "DW_AT_data_location"), (0x51, "DW_AT_byte_stride"),
  (0x52, "DW_AT_entry_pc"), (0x53, "DW_AT_use_UTF8"), (0x54, "DW_AT_extension"),
  (0x55, "DW_AT_ranges"), (0x56, "DW_AT_trampoline"), (0x57, "DW_AT_call_column"),
  (0x58, "DW_AT_call_file"), (0x59, "DW_AT_call_line"), (0x5a, "DW_AT_description"),
  (0x5b, "DW_AT_binary_scale"), (0x5c, "DW_AT_decimal_scale"), (0x5d, "DW_AT_small"),
  (0x5e, "DW_AT_decimal_sign"), (0x5f, "DW_AT_digit_count"), (0x60, "DW_AT_picture_string"),
  (0x61, "DW_AT_mutable"), (0x62, "DW_AT_threads_scaled"), (0x63, "DW_AT_explicit"),
  (0x64, "DW_AT_object_pointer"), (0x65, "DW_AT_endianity"), (0x66, "DW_AT_elemental"),
  (0x67, "DW_AT_pure"), (0x68, "DW_AT_recursive"), (0x69, "DW_AT_signature"),
  (0x6a, "DW_AT_main_subprogram"), (0x6b, "DW_AT_data_bit_offset"), (0x6c, "DW_AT_const_expr"),
  (0x6d, "DW_AT_enum_class"), (0x6e, "DW_AT_linkage_name"), (0x2000, "DW_AT_lo_user"),
  (0x2007, "DW_AT_MIPS_linkage_name"), (0x3fff, "DW_AT_hi_user")]

def name? (label : AttributeName) : Option String := names.lookup label.code

def text (label : AttributeName) : String :=
  label.name?.getD ("DwAt(" ++ Text.hex label.code.toNat ++ ")")

def name : AttributeName := ⟨0x03⟩
def lineProgram : AttributeName := ⟨0x10⟩
def lowAddress : AttributeName := ⟨0x11⟩
def highAddress : AttributeName := ⟨0x12⟩
def abstractOrigin : AttributeName := ⟨0x31⟩
def specification : AttributeName := ⟨0x47⟩
def ranges : AttributeName := ⟨0x55⟩
def linkageName : AttributeName := ⟨0x6e⟩
def vendorLinkageName : AttributeName := ⟨0x2007⟩

end AttributeName

end Symbolication
