/-!
# General categories of characters

Unicode gives every code point a category of two letters, such as `Lu` for
upper case letters.  `categoryRuns` lists the categories of all code points
in order, as runs: the length of the run, left out when it is one, and the
category.
-/

namespace ApiContract.Unicode

/-- The categories of all code points from zero on, as runs. -/
def categoryRuns : String :=
  String.join [
    "32CcZs3PoSc3PoPsPePoSmPoPd2Po10Nd2Po3Sm2Po26LuPsPoPeSkPcSk26LlPsSmPeSm33CcZsPo4ScSoPoSk",
    "SoLoPiSmCfSoSkSoSm2NoSkLl2PoSkNoLoPf3NoPo23LuSm7Lu24LlSm8LlLuLlLuLlLuLlLuLlLuLlLuLlLuLl",
    "LuLlLuLlLuLlLuLlLuLlLuLlLuLlLuLlLuLlLuLlLuLlLuLlLuLlLuLlLuLlLuLlLuLlLuLlLuLlLuLlLu2LlLu",
    "LlLuLlLuLlLuLlLuLlLuLlLuLlLu2LlLuLlLuLlLuLlLuLlLuLlLuLlLuLlLuLlLuLlLuLlLuLlLuLlLuLlLuLl",
    "LuLlLuLlLuLlLuLlLuLlLuLlLuLlLuLlLuLl2LuLlLuLlLu3Ll2LuLlLuLl2LuLl3Lu2Ll4LuLl2LuLl3Lu3Ll",
    "2LuLl2LuLlLuLlLuLl2LuLlLu2LlLuLl2LuLl3LuLlLuLl2Lu2LlLoLu3Ll4LoLuLtLlLuLtLlLuLtLlLuLlLuLl",
    "LuLlLuLlLuLlLuLlLuLlLu2LlLuLlLuLlLuLlLuLlLuLlLuLlLuLlLuLlLu2LlLuLtLlLuLl3LuLlLuLlLuLlLu",
    "LlLuLlLuLlLuLlLuLlLuLlLuLlLuLlLuLlLuLlLuLlLuLlLuLlLuLlLuLlLuLlLuLlLuLlLuLlLuLlLuLlLuLlLu",
    "LlLuLlLuLlLuLlLu7Ll2LuLl2Lu2LlLuLl4LuLlLuLlLuLlLuLlLu69LlLo27Ll18Lm4Sk12Lm14Sk5Lm7SkLmSk",
    "Lm17Sk112MnLuLlLuLlLmSkLuLl2CnLm3LlPoLu4Cn2SkLuPo3LuCnLuCn2LuLl17LuCn9Lu35LlLu2Ll3Lu3Ll",
    "LuLlLuLlLuLlLuLlLuLlLuLlLuLlLuLlLuLlLuLlLuLlLu5LlLuLlSmLuLl2Lu2Ll51Lu48LlLuLlLuLlLuLlLu",
    "LlLuLlLuLlLuLlLuLlLuLlLuLlLuLlLuLlLuLlLuLlLuLlLuLlLuLlSo5Mn2MeLuLlLuLlLuLlLuLlLuLlLuLlLu",
    "LlLuLlLuLlLuLlLuLlLuLlLuLlLuLlLuLlLuLlLuLlLuLlLuLlLuLlLuLlLuLlLuLlLuLlLuLlLuLlLuLl2LuLl",
    "LuLlLuLlLuLlLuLlLuLlLu2LlLuLlLuLlLuLlLuLlLuLlLuLlLuLlLuLlLuLlLuLlLuLlLuLlLuLlLuLlLuLlLu",
    "LlLuLlLuLlLuLlLuLlLuLlLuLlLuLlLuLlLuLlLuLlLuLlLuLlLuLlLuLlLuLlLuLlLuLlLuLlLuLlLuLlLuLlLu",
    "LlLuLlLuLlLuLlLuLlLuLlLuLlLuLlLuLlLuLlLuLlCn38Lu2CnLm6Po41LlPoPd2Cn2SoScCn45MnPdMnPo2Mn",
    "Po2MnPoMn8Cn27Lo4Cn4Lo2Po11Cn6Cf3Sm2PoSc2Po2So11MnPoCf3Po32LoLm10Lo21Mn10Nd4Po2LoMn99Lo",
    "PoLo7MnCfSo6Mn2Lm2MnSo4Mn2Lo10Nd3Lo2SoLo14PoCnCfLoMn30Lo27Mn2Cn89Lo11MnLo14Cn10Nd33Lo9Mn",
    "2LmSo3PoLm2CnMn2Sc22Lo4MnLm9MnLm3MnLm5Mn2Cn15PoCn25Lo3Mn2CnPoCn11Lo5Cn24LoSk6LoCn2Cf6Cn",
    "8Mn41LoLm24MnCf32MnMc54LoMnMcMnLo3Mc8Mn4McMn2McLo7Mn10Lo2Mn2Po10NdPoLm15LoMn2McCn8Lo2Cn",
    "2Lo2Cn22LoCn7LoCnLo3Cn4Lo2CnMnLo3Mc4Mn2Cn2Mc2Cn2McMnLo8CnMc4Cn2LoCn3Lo2Mn2Cn10Nd2Lo2Sc",
    "6NoSoScLoPoMn2Cn2MnMcCn6Lo4Cn2Lo2Cn22LoCn7LoCn2LoCn2LoCn2Lo2CnMnCn3Mc2Mn4Cn2Mn2Cn3Mn3Cn",
    "Mn7Cn4LoCnLo7Cn10Nd2Mn3LoMnPo10Cn2MnMcCn9LoCn3LoCn22LoCn7LoCn2LoCn5Lo2CnMnLo3Mc5MnCn2Mn",
    "McCn2McMn2CnLo15Cn2Lo2Mn2Cn10NdPoSc7CnLo6MnCnMn2McCn8Lo2Cn2Lo2Cn22LoCn7LoCn2LoCn5Lo2CnMn",
    "LoMcMnMc4Mn2Cn2Mc2Cn2McMn7Cn2MnMc4Cn2LoCn3Lo2Mn2Cn10NdSoLo6No10CnMnLoCn6Lo3Cn3LoCn4Lo3Cn",
    "2LoCnLoCn2Lo3Cn2Lo3Cn3Lo3Cn12Lo4Cn2McMn2Mc3Cn3McCn3McMn2CnLo6CnMc14Cn10Nd3No6SoScSo5CnMn",
    "3McMn8LoCn3LoCn23LoCn16Lo2CnMnLo3Mn4McCn3MnCn4Mn7Cn2MnCn3Lo2CnLo2Cn2Lo2Mn2Cn10Nd7CnPo7No",
    "SoLoMn2McPo8LoCn3LoCn23LoCn10LoCn5Lo2CnMnLoMcMn5McCnMn2McCn2Mc2Mn7Cn2Mc6Cn2LoCn2Lo2Mn2Cn",
    "10NdCn2Lo13Cn2Mn2Mc9LoCn3LoCn41Lo2MnLo3Mc4MnCn3McCn3McMnLoSo4Cn3LoMc7No3Lo2Mn2Cn10Nd9No",
    "So6LoCnMn2McCn18Lo3Cn24LoCn9LoCnLo2Cn7Lo3CnMn4Cn3Mc3MnCnMnCn8Mc6Cn10Nd2Cn2McPo12Cn48LoMn",
    "2Lo7Mn4CnSc6LoLm8MnPo10Nd2Po37Cn2LoCnLoCn5LoCn24LoCnLoCn10LoMn2Lo9MnLo2Cn5LoCnLmCn6Mn2Cn",
    "10Nd2Cn4Lo32CnLo3So15PoSoPo3So2Mn6So10Nd10NoSoMnSoMnSoMnPsPePsPe2Mc8LoCn36Lo4Cn14MnMc5Mn",
    "Po2Mn5Lo11MnCn36MnCn8SoMn6SoCn2So5Po4So2Po37Cn43Lo2Mc4MnMc6MnMc2Mn2Mc2MnLo10Nd6Po6Lo2Mc",
    "2Mn4Lo3MnLo3Mc2Lo7Mc3Lo4Mn13LoMn2Mc2Mn6McMnLoMc10Nd3McMn2So38LuCnLu5CnLu2Cn43LlPoLm3Ll",
    "329LoCn4Lo2Cn7LoCnLoCn4Lo2Cn41LoCn4Lo2Cn33LoCn4Lo2Cn7LoCnLoCn4Lo2Cn15LoCn57LoCn4Lo2Cn",
    "67Lo2Cn3Mn9Po20No3Cn16Lo10So6Cn86Lu2Cn6Ll2CnPd620LoSoPo17LoZs26LoPsPe3Cn75Lo3Po3Nl8Lo7Cn",
    "18Lo3MnMc9Cn19Lo2MnMc2Po9Cn18Lo2Mn12Cn13LoCn3LoCn2Mn12Cn52Lo2MnMc7Mn8McMn2Mc11Mn3PoLm3Po",
    "ScLoMn2Cn10Nd6Cn10No6Cn6PoPd4Po3MnCfMn10Nd6Cn35LoLm53Lo7Cn5Lo2Mn34LoMnLo5Cn70Lo10Cn31Lo",
    "Cn3Mn4Mc2Mn3Mc4Cn2McMn6Mc3Mn4CnSo3Cn2Po10Nd30Lo2Cn5Lo11Cn44Lo4Cn26Lo6Cn10NdNo3Cn34So23Lo",
    "2Mn2McMn2Cn2Po53LoMcMnMc7MnCnMnMcMn2Mc8Mn6Mc10Mn2CnMn10Nd6Cn10Nd6Cn7PoLm6Po2Cn14MnMe16Mn",
    "49Cn4MnMc47LoMnMc5MnMcMn5McMn2Mc8Lo3Cn10Nd7Po10So9Mn9So2PoCn2MnMc30LoMc4Mn2Mc2MnMc3Mn2Lo",
    "10Nd44LoMnMc2Mn3McMnMc3Mn2Mc8Cn4Po36Lo8Mc8Mn2Mc2Mn3Cn5Po10Nd3Cn3Lo10Nd30Lo6Lm2Po9Ll7Cn",
    "43Lu2Cn3Lu8Po8Cn3MnPo13MnMc7Mn4LoMn6LoMn2LoMc2MnLo5Cn44Ll63Lm13LlLm34Ll37Lm64MnLuLlLuLl",
    "LuLlLuLlLuLlLuLlLuLlLuLlLuLlLuLlLuLlLuLlLuLlLuLlLuLlLuLlLuLlLuLlLuLlLuLlLuLlLuLlLuLlLuLl",
    "LuLlLuLlLuLlLuLlLuLlLuLlLuLlLuLlLuLlLuLlLuLlLuLlLuLlLuLlLuLlLuLlLuLlLuLlLuLlLuLlLuLlLuLl",
    "LuLlLuLlLuLlLuLlLuLlLuLlLuLlLuLlLuLlLuLlLuLlLuLlLuLlLuLlLuLlLuLlLuLlLuLlLuLlLuLlLuLlLuLl",
    "LuLlLuLlLuLlLuLlLuLlLuLlLu9LlLuLlLuLlLuLlLuLlLuLlLuLlLuLlLuLlLuLlLuLlLuLlLuLlLuLlLuLlLu",
    "LlLuLlLuLlLuLlLuLlLuLlLuLlLuLlLuLlLuLlLuLlLuLlLuLlLuLlLuLlLuLlLuLlLuLlLuLlLuLlLuLlLuLlLu",
    "LlLuLlLuLlLuLlLuLlLuLlLuLlLuLlLuLlLuLlLuLlLuLlLu9Ll8Lu6Ll2Cn6Lu2Cn8Ll8Lu8Ll8Lu6Ll2Cn6Lu",
    "2Cn8LlCnLuCnLuCnLuCnLu8Ll8Lu14Ll2Cn8Ll8Lt8Ll8Lt8Ll8Lt5LlCn2Ll4LuLtSkLl3Sk3LlCn2Ll4LuLt",
    "3Sk4Ll2Cn2Ll4LuCn3Sk8Ll5Lu3Sk2Cn3LlCn2Ll4LuLt2SkCn11Zs5Cf6Pd2PoPiPfPs2PiPfPsPi8PoZlZp5Cf",
    "Zs9PoPiPf4Po2Pc3PoSmPsPe11PoSmPoPc10PoZs5CfCn10CfNoLm2Cn6No3SmPsPeLm10No3SmPsPeCn13Lm3Cn",
    "33Sc15Cn13Mn4MeMn3Me12Mn15Cn2SoLu4SoLu2SoLl3Lu2Ll3LuLlSoLu2SoSm5Lu6SoLuSoLuSoLuSo4LuSoLl",
    "4LuLl4LoLl2So2Ll2Lu5SmLu4LlSoSm2SoLlSo16No35NlLuLl4NlNo2So4Cn5Sm5So2Sm4SoSm2SoSm2SoSm7So",
    "Sm31So2Sm2SoSmSoSm31So268Sm8SoPsPePsPe20So2Sm7SoPsPe81SoSm30So25Sm40So6Sm69So25Cn11So",
    "21Cn60No78So22No183SoSm9SoSm54So8Sm111SoSm248SoPsPePsPePsPePsPePsPePsPePsPe30No44So5SmPs",
    "Pe31SmPsPePsPePsPePsPePsPe16Sm256So131SmPsPePsPePsPePsPePsPePsPePsPePsPePsPePsPePsPe63Sm",
    "PsPePsPe32SmPsPe258Sm48So21Sm2So6Sm39So2Cn32SoCn105So48Lu48LlLuLl3Lu2LlLuLlLuLlLuLl4LuLl",
    "Lu2LlLu6Ll2Lm3LuLlLuLlLuLlLuLlLuLlLuLlLuLlLuLlLuLlLuLlLuLlLuLlLuLlLuLlLuLlLuLlLuLlLuLlLu",
    "LlLuLlLuLlLuLlLuLlLuLlLuLlLuLlLuLlLuLlLuLlLuLlLuLlLuLlLuLlLuLlLuLlLuLlLuLlLuLlLuLlLuLlLu",
    "LlLuLlLuLlLuLlLuLlLuLlLuLlLuLlLuLlLu2Ll6SoLuLlLuLl3MnLuLl5Cn4PoNo2Po38LlCnLl5CnLl2Cn56Lo",
    "7CnLmPo14CnMn23Lo9Cn7LoCn7LoCn7LoCn7LoCn7LoCn7LoCn7LoCn7LoCn32Mn2PoPiPfPiPf3PoPiPfPoPiPf",
    "9PoPd2PoPdPoPiPf2PoPiPfPsPePsPePsPePsPe5PoLm10Po2Pd4PoPdPoPs13Po2So3PoPsPePsPePsPePsPePd",
    "34Cn26SoCn89So12Cn214So26Cn12So4CnZs3PoSoLmLoNlPsPePsPePsPePsPePsPe2SoPsPePsPePsPePsPePd",
    "Ps2PeSo9Nl4Mn2McPd5Lm2So3NlLmLoPo2SoCn86Lo2Cn2Mn2Sk2LmLoPd90LoPo3LmLo5Cn43LoCn94LoCn2So",
    "4No10So32Lo36So12Cn16Lo31SoCn10No30So8NoSo15No32So10No39So15No320So6592Lo64So21013LoLm",
    "1143Lo3Cn55So9Cn40Lo6Lm2Po268LoLm3Po16Lo10Nd2Lo20CnLuLlLuLlLuLlLuLlLuLlLuLlLuLlLuLlLuLl",
    "LuLlLuLlLuLlLuLlLuLlLuLlLuLlLuLlLuLlLuLlLuLlLuLlLuLlLuLlLoMn3MePo10MnPoLmLuLlLuLlLuLlLu",
    "LlLuLlLuLlLuLlLuLlLuLlLuLlLuLlLuLlLuLlLuLl2Lm2Mn70Lo10Nl2Mn6Po8Cn23Sk9Lm2SkLuLlLuLlLuLl",
    "LuLlLuLlLuLlLu3LlLuLlLuLlLuLlLuLlLuLlLuLlLuLlLuLlLuLlLuLlLuLlLuLlLuLlLuLlLuLlLuLlLuLlLu",
    "LlLuLlLuLlLuLlLuLlLuLlLuLlLuLlLuLlLuLlLuLlLuLlLuLlLuLlLm8LlLuLlLuLl2LuLlLuLlLuLlLuLlLuLl",
    "Lm2SkLuLlLuLlLoLuLlLu3LlLuLlLuLlLuLlLuLlLuLlLuLlLuLlLuLlLuLlLuLl5LuLl5LuLlLuLlLuLlLuLlLu",
    "LlLuLlLuLlLuLl4LuLlLuLl5CnLuLlCnLlCnLlLuLlLuLl24Cn3LmLuLlLo2LmLl7LoMn3LoMn4LoMn23Lo2Mc",
    "2MnMc4SoMn3Cn6No2SoScSo6Cn52Lo4Po8Cn2Mc50Lo16Mc2Mn8Cn2Po10Nd6Cn18Mn6Lo3PoLoPo2LoMn10Nd",
    "28Lo8Mn2Po23Lo11Mn2Mc11CnPo29Lo3Cn3MnMc47LoMn2Mc4Mn2Mc2Mn3Mc13PoCnLm10Nd4Cn2Po5LoMnLm9Lo",
    "10Nd5LoCn41Lo6Mn2Mc2Mn2Mc2Mn9Cn3LoMn8LoMnMc2Cn10Nd2Cn4Po16LoLm6Lo3SoLoMcMnMc50LoMnLo3Mn",
    "2Lo2Mn5Lo2MnLoMnLo24Cn2LoLm2Po11LoMc2Mn2Mc2PoLo2LmMcMn10Cn6Lo2Cn6Lo2Cn6Lo9Cn7LoCn7LoCn",
    "43LlSk4Lm9LlLm2Sk4Cn80Ll35Lo2McMn2McMn2McPoMcMn2Cn10Nd6Cn11172Lo12Cn23Lo4Cn49Lo4Cn2048Cs",
    "6400Co366Lo2Cn106Lo38Cn7Ll12Cn5Ll5CnLoMn10LoSm13LoCn5LoCnLoCn2LoCn2LoCn108Lo17Sk16Cn",
    "363LoPePs16So64Lo2Cn54Lo7CnSo32Cn12LoSc3So16Mn7PoPsPePo6Cn16MnPo2Pd2PcPsPePsPePsPePsPePs",
    "PePsPePsPePsPe2PoPsPe4Po3Pc3PoCn4PoPdPsPePsPePsPe3PoSmPd3SmCnPoSc2Po4Cn5LoCn135Lo2CnCfCn",
    "3PoSc3PoPsPePoSmPoPd2Po10Nd2Po3Sm2Po26LuPsPoPeSkPcSk26LlPsSmPeSmPsPePoPsPe2Po10LoLm45Lo",
    "2Lm31Lo3Cn6Lo2Cn6Lo2Cn6Lo2Cn3Lo3Cn2ScSmSkSo2ScCnSo4Sm2So10Cn3Cf2So2Cn12LoCn26LoCn19LoCn",
    "2LoCn15Lo2Cn14Lo34Cn123Lo5Cn3Po4Cn45No3Cn9So53Nl4No17So2No3SoCn13So3CnSo47Cn45SoMn130Cn",
    "29Lo3Cn49Lo15CnMn27No4Cn32Lo4No9Cn20LoNl8LoNl5Cn38Lo5Mn5Cn30LoCnPo36Lo4Cn8LoPo5Nl42Cn",
    "40Lu40Ll78Lo2Cn10Nd6Cn36Lu4Cn36Ll4Cn40Lo8Cn52Lo11CnPo11LuCn15LuCn7LuCn2LuCn11LlCn15LlCn",
    "7LlCn2Ll67Cn311Lo9Cn22Lo10Cn8Lo24Cn6LmCn42LmCn9Lm69Cn6Lo2CnLoCn44LoCn2Lo3CnLo2Cn23LoCnPo",
    "8No23Lo2So7No31Lo8Cn9No48Cn19LoCn2Lo5Cn5No22Lo6No3CnPo26Lo5CnPo64Cn56Lo4Cn2No2Lo16No2Cn",
    "46NoLo3MnCn2Mn5Cn4Mn4LoCn3LoCn29Lo2Cn3Mn4CnMn9No7Cn9Po7Cn29Lo2NoPo29Lo3No32Cn8LoSo28Lo",
    "2Mn4Cn5No7Po9Cn54Lo3Cn7Po22Lo2Cn8No19Lo5Cn8No18Lo7Cn4Po12Cn7No80Cn73Lo55Cn51Lu13Cn51Ll",
    "7Cn6No36Lo4Mn8Cn10Nd294Cn31NoCn42LoCn2MnPd2Cn2Lo78Cn29Lo10NoLo8Cn22Lo11Mn4No5Po22Cn18Lo",
    "4Mn4Po38Cn21Lo7No20Cn23Lo9CnMcMnMc53Lo15Mn7Po4Cn20No10NdMn2Lo2MnLo9Cn3MnMc45Lo3Mc4Mn2Mc",
    "2Mn2PoCf4PoMn10CnCf2Cn25Lo7Cn10Nd6Cn3Mn36Lo5MnMc8MnCn10Nd4PoLo2McLo8Cn35LoMn2PoLo9Cn2Mn",
    "Mc48Lo3Mc9Mn2Mc4Lo4Po4MnPoMcMn10NdLoPoLo3PoCn20No11Cn18LoCn25Lo3Mc3Mn2McMnMc2Mn6PoMn65Cn",
    "7LoCnLoCn4LoCn15LoCn10LoPo6Cn47LoMn3Mc8Mn5Cn10Nd6Cn2Mn2McCn8Lo2Cn2Lo2Cn22LoCn7LoCn2LoCn",
    "5LoCn2MnLo2McMn4Mc2Cn2Mc2Cn3Mc2CnLo6CnMc5Cn5Lo2Mc2Cn7Mn3Cn5Mn139Cn53Lo3Mc8Mn2Mc3MnMcMn",
    "4Lo5Po10Nd2PoCnPoMn3Lo30Cn48Lo3Mc6MnMcMn4Mc2MnMc2Mn2LoPoLo8Cn10Nd166Cn47Lo3Mc4Mn2Cn4Mc",
    "2MnMc2Mn23Po4Lo2Mn34Cn48Lo3Mc8Mn2McMnMc2Mn3PoLo11Cn10Nd6Cn13Po19Cn43LoMnMcMn2Mc6MnMcMnLo",
    "Po6Cn10Nd54Cn27Lo2Cn3Mn2Mc4MnMc5Mn4Cn10Nd2No3PoSo7Lo185Cn44Lo3Mc9MnMc2MnPo100Cn32Lu32Ll",
    "10Nd9No12Cn8Lo2CnLo2Cn8LoCn2LoCn24Lo6McCn2Mc2Cn2MnMcMnLoMcLoMcMn3Po9Cn10Nd70Cn8Lo2Cn39Lo",
    "3Mc4Mn2Cn2Mn4McMnLoPoLoMc27CnLo10Mn40Lo6MnMcLo4Mn8PoMn8CnLo6Mn2Mc3Mn46Lo13MnMc2Mn3PoLo",
    "5Po13Cn73Lo263Cn9LoCn37LoMc7MnCn6MnMcMnLo5Po10Cn10Nd19No3Cn2Po30Lo2Cn22MnCnMc7MnMc2MnMc",
    "2Mn73Cn7LoCn2LoCn38Lo6Mn3CnMnCn2MnCn7MnLoMn8Cn10Nd6Cn6LoCn2LoCn32Lo5McCn2MnCn2McMnMcMnLo",
    "7Cn10Nd310Cn19Lo2Mn2Mc2Po183CnLo15Cn21No8So4Sc17So13CnPo922Lo102Cn111NlCn5Po11Cn196Lo",
    "2636Cn97Lo2Po13Cn1071LoCn9Cf4039Cn583Lo8633Cn569Lo7Cn31LoCn10Nd4Cn2Po79LoCn10Nd6Cn30Lo",
    "2Cn5MnPo10Cn48Lo7Mn5Po4So4LmPoSo10Cn10NdCn7NoCn21Lo5Cn19Lo688Cn32Lu32Ll23No4Po101Cn75Lo",
    "4CnMnLo55Mc7Cn4Mn13Lm64Cn2LmPoLmMn11Cn2Mc14Cn6136Lo8Cn1238Lo42Cn9Lo8935Cn4LmCn7LmCn2LmCn",
    "291Lo45Cn3Lo17Cn4Lo8Cn396Lo2308Cn107Lo5Cn13Lo3Cn9Lo7Cn10Lo2CnSo2MnPo4Cf4700Cn46Mn2Cn23Mn",
    "9Cn116So60Cn246So10Cn39So2Cn60So2Mc3Mn3So6Mc8Cf8Mn2So7Mn30So4Mn61So21Cn66So3MnSo154Cn",
    "20No12Cn87So9Cn25No135Cn26Lu26Ll26Lu7LlCn18Ll26Lu26LlLuCn2Lu2CnLu2Cn2Lu2Cn4LuCn8Lu4LlCn",
    "LlCn7LlCn11Ll26Lu26Ll2LuCn4Lu2Cn8LuCn7LuCn26Ll2LuCn4LuCn5LuCnLu3Cn7LuCn26Ll26Lu26Ll26Lu",
    "26Ll26Lu26Ll26Lu26Ll26Lu26Ll26Lu28Ll2Cn25LuSm25LlSm6Ll25LuSm25LlSm6Ll25LuSm25LlSm6Ll25Lu",
    "Sm25LlSm6Ll25LuSm25LlSm6LlLuLl2Cn50Nd512So55Mn4So50Mn8SoMn14SoMn2So5Po15Cn5MnCn15Mn",
    "1104Cn10LlLo20Ll225Cn7MnCn17Mn2Cn7MnCn2MnCn5Mn213Cn45Lo3Cn7Mn7Lm2Cn10Nd4CnLoSo320Cn30Lo",
    "Mn17Cn44Lo4Mn10Nd5CnSc1248Cn7LoCn4LoCn2LoCn15LoCn197Lo2Cn9No7Mn41Cn34Lu34Ll7MnLm4Cn10Nd",
    "4Cn2Po785Cn59NoSo3NoSc4No76Cn45NoSo15No194Cn4LoCn27LoCn2LoCnLo2CnLoCn10LoCn4LoCnLoCnLo",
    "6CnLo4CnLoCnLoCnLoCn3LoCn2LoCnLo2CnLoCnLoCnLoCnLoCnLoCn2LoCnLo2Cn4LoCn7LoCn4LoCn4LoCnLo",
    "Cn10LoCn17Lo5Cn3LoCn5LoCn17Lo52Cn2Sm270Cn44So4Cn100So12Cn15So2Cn15SoCn15SoCn37So10Cn13No",
    "161So56Cn29So13Cn44So4Cn9So7Cn2So14Cn6So154Cn251So5Sk728So5Cn16So3Cn13So3Cn116So12Cn89So",
    "7Cn12So4CnSo15Cn12So4Cn56So8Cn10So6Cn40So8Cn30So2Cn2So78Cn340So12Cn14So2Cn5So3Cn5So3Cn",
    "7So9Cn29So3Cn11So5Cn6So10Cn10So6Cn8So8Cn7So9Cn147SoCn55So37Cn10Nd1030Cn42720Lo32Cn4153Lo",
    "7Cn222Lo2Cn5762Lo14Cn7473Lo3103Cn542Lo1506Cn4939Lo715958CnCf30Cn96Cf128Cn240Mn65040Cn",
    "65534Co2Cn65534Co2Cn"]

/-- The runs in the given text, each with its first code point, the code
point after its last, and its category. -/
def readRuns (start count : Nat) : List Char → List (Nat × Nat × String)
  | [] => []
  | c :: rest =>
    if c.isDigit then readRuns start (count * 10 + (c.toNat - '0'.toNat)) rest
    else
      match rest with
      | [] => []
      | d :: rest =>
        let stop := start + max count 1
        (start, stop, String.ofList [c, d]) :: readRuns stop 0 rest

/-- The runs of `categoryRuns`. -/
def categories : List (Nat × Nat × String) := readRuns 0 0 categoryRuns.toList

/-- The category of a character. -/
def category (c : Char) : String :=
  match categories.find? fun (_, stop, _) => c.toNat < stop with
  | some (_, _, name) => name
  | none => "Cn"

end ApiContract.Unicode
